import Panoptikon.Transcode.Compose
import Mathlib.Data.List.Induction
import Mathlib.Tactic.Linarith

/-!
# What an admitted composition promises

A document that is returned fills its length: every span that is shorter loops the least
number of passes, each in a buffer that holds all its frames, and the buffers keep within
the memory of the limits. Near the end of the 64-bit range, a sum overflows and a frame
count saturates.
-/

namespace Panoptikon.Transcode.Compose

open Foundation Foundation.SignedWords

/-- The length of what plays. -/
def ComposeItem.spanCs (item : ComposeItem) : Option Int :=
  item.time.bounds.map fun bounds => bounds.2.toInt - bounds.1.toInt

/-- The frames of an item's buffer as `spanLoop` declares them; what is still has one. -/
def declaredFrames (doc : ResolvedCompose) (item : ComposeItem) : Nat :=
  match item.spanCs with
  | none => 1
  | some span =>
      match spanLoop span doc with
      | .ok (some passes) => passes.2.toNat
      | _ => 0

/-- The least number of passes of a span that last as long as the target. -/
def LeastPasses (span targetCs passes : Int) : Prop :=
  targetCs ≤ passes * span ∧ ∀ fewer, targetCs ≤ fewer * span → passes ≤ fewer

structure Filled (preset : ResolvedPreset) (limits : ComposeLimits) (doc : ResolvedCompose) : Prop where
  loops : ∀ item ∈ doc.items, ∀ span, item.spanCs = some span → span < doc.targetCs →
    ∃ extra frames, spanLoop span doc = .ok (some (extra, frames)) ∧ LeastPasses span doc.targetCs (extra + 1) ∧
      span * doc.fps ≤ 100 * frames
  memory : (doc.items.map fun item => declaredFrames doc item * pixels item * 3 / 2).sum ≤
    limits.maxMosaicLoopMb.toNat * bytesPerMb
  length : 1 ≤ doc.targetCs ∧ doc.targetCs ≤ 100 * (capSeconds preset limits).toNat

/-- No overflow, and every document that is returned is filled. -/
def Admits (request : ComposeRequest) (preset : ResolvedPreset) (limits : ComposeLimits) : Prop :=
  resolveCompose request preset limits ≠ .error .overflow ∧
    ∀ doc, resolveCompose request preset limits = .ok doc → Filled preset limits doc

section Condition

variable (request : ComposeRequest) (preset : ResolvedPreset) (limits : ComposeLimits)

/-- The request passes every check in front of the memory guard. -/
structure Checked : Prop where
  count : validateItemCount request limits = .ok ()
  canvas : validateCanvas request.canvas preset = .ok ()
  background : (normalizeColor request.canvas.background).isSome = true
  fps : resolveFps request.fps preset = .ok (cappedFps request.fps preset)
  items : ∀ item ∈ request.items, validateItem request.canvas item = .ok ()
  length : ∀ seconds, request.length = .cap seconds → (positive seconds.toNat).isSome = true

/-- The length that is asked for: a cap, or the longest span. -/
def askedCs : Int :=
  match request.length with
  | .cap seconds => roundedCs seconds limits.maxOutputSeconds
  | .longestLoopOnce => ((request.items.filterMap ComposeItem.spanCs).max?).getD stillsOnlyTargetCs

/-- The asked length between one and the cap. -/
def lengthCs : Int := clampCs (askedCs request limits) preset limits

/-- A span of the request that is shorter than the output. -/
def Short (span : Int) : Prop :=
  (∃ item ∈ request.items, item.spanCs = some span) ∧ span < lengthCs request preset limits

/-- The largest multiple of a hundred in the range. -/
def mostCounted : Int := 9223372036854775800

/-- The frames the guard counts for an item. -/
def guardFrames (item : ComposeItem) : Nat :=
  match item.spanCs with
  | none => 1
  | some span =>
      if span < lengthCs request preset limits then
        ((min (span * cappedFps request.fps preset + 99) maxValue) / 100).toNat
      else 0

def guardBytes : Nat := (request.items.map fun item => guardFrames request preset limits item * pixels item * 3 / 2).sum

/-- Every check in front of the guard is passed, no sum of the lengths overflows, and then the guard refuses, or the
cap is no zero and no frame count saturates. -/
def Sized : Prop :=
  ¬Checked request preset limits ∨
    (∀ span, Short request preset limits span → lengthCs request preset limits + span ≤ maxValue) ∧
      (limits.maxMosaicLoopMb.toNat * bytesPerMb < guardBytes request preset limits ∨
        1 ≤ (capSeconds preset limits).toNat ∧
          ∀ span, Short request preset limits span → span * cappedFps request.fps preset ≤ mostCounted)

end Condition

theorem i64_ok {value : Int} (low : minValue ≤ value) (high : value ≤ maxValue) : i64 value = .ok value := by
  rw [i64, checked_inside low high]

theorem i64_overflow {value : Int} (high : maxValue < value) : i64 value = .error .overflow := by
  rw [i64, checked_above high]

theorem least_passes {span targetCs : Int} (plays : 0 < span) :
    LeastPasses span targetCs ((targetCs + span - 1) / span) := by
  have split := Int.emod_add_mul_ediv (targetCs + span - 1) span
  have low := Int.emod_nonneg (targetCs + span - 1) (ne_of_gt plays)
  have high := Int.emod_lt_of_pos (targetCs + span - 1) plays
  constructor
  · rw [Int.mul_comm]
    omega
  · intro fewer enough
    have under : targetCs + span - 1 < (fewer + 1) * span := by
      rw [Int.add_mul, Int.one_mul]
      omega
    have quotient : (targetCs + span - 1) / span < fewer + 1 := Int.ediv_lt_of_lt_mul plays under
    omega

section Span

variable {doc : ResolvedCompose} {span : Int}

theorem span_long (long : doc.targetCs ≤ span) : spanLoop span doc = .ok none := by
  rw [spanLoop]
  apply if_pos
  right
  omega

theorem span_loops (plays : 0 < span) (short : span < doc.targetCs) (fits : doc.targetCs + span ≤ maxValue) :
    spanLoop span doc =
      .ok (some ((doc.targetCs + span - 1) / span - 1, max (framesFor span doc.fps) 1)) := by
  have same : max span 0 = span := max_eq_left (le_of_lt plays)
  have quotientLow : 0 ≤ (doc.targetCs + span - 1) / span := Int.ediv_nonneg (by omega) (le_of_lt plays)
  have quotientHigh : (doc.targetCs + span - 1) / span ≤ doc.targetCs + span - 1 :=
    Int.ediv_le_self span (by omega)
  have sum := @i64_ok (doc.targetCs + span) (by unfold minValue; omega) fits
  have above := @i64_ok (doc.targetCs + span - 1) (by unfold minValue; omega) (by omega)
  have extra := @i64_ok ((doc.targetCs + span - 1) / span - 1) (by unfold minValue; omega) (by omega)
  rw [spanLoop, same, if_neg (by omega), sum]
  change (i64 (doc.targetCs + span - 1) >>= _) = _
  rw [above]
  change (i64 ((doc.targetCs + span - 1) / span - 1) >>= _) = _
  rw [extra]
  rfl

/-- A span of 0.30 s at 25 frames a second fills ten seconds. -/
example : spanLoop 30 ⟨640, 480, hiddenBackground, 25, 1000, []⟩ = .ok (some (33, 8)) := by decide +kernel

theorem span_overflows (plays : 0 < span) (short : span < doc.targetCs) (exceeds : maxValue < doc.targetCs + span) :
    spanLoop span doc = .error .overflow := by
  have same : max span 0 = span := max_eq_left (le_of_lt plays)
  rw [spanLoop, same, if_neg (by omega), i64_overflow exceeds]
  rfl

theorem frames_for_eq {fps : Nat} (plays : 0 < span) (running : 0 < fps) :
    framesFor span fps = min (span * fps + 99) maxValue / 100 := by
  have same : max span 0 = span := max_eq_left (le_of_lt plays)
  have rate : ((max fps 1 : Nat) : Int) = fps := by
    rw [Nat.max_eq_left running]
  have product : 0 ≤ span * (fps : Int) := Int.mul_nonneg (le_of_lt plays) (Int.natCast_nonneg fps)
  unfold framesFor saturatingAdd saturatingMul
  rw [same, rate, saturate_of_nonneg product]
  unfold saturate minValue maxValue
  omega

theorem frames_enough_iff {fps : Nat} (plays : 0 < span) (running : 0 < fps) :
    span * fps ≤ 100 * max (framesFor span fps) 1 ↔ span * fps ≤ mostCounted := by
  have product : 1 ≤ span * (fps : Int) := by
    have one : 1 * 1 ≤ span * (fps : Int) :=
      Int.mul_le_mul plays (by omega) (by omega) (le_of_lt plays)
    omega
  rw [frames_for_eq plays running]
  unfold maxValue mostCounted
  omega

end Span

theorem guarded_ok {condition : Prop} [Decidable condition] {fault : Fault} {rest : Resolved Unit} :
    (if condition then .error fault else rest) = .ok () ↔ ¬condition ∧ rest = .ok () := by
  by_cases holds : condition
  · rw [if_pos holds]
    constructor
    · intro absurd_
      cases absurd_
    · intro both
      exact absurd holds both.1
  · rw [if_neg holds]
    exact (and_iff_right holds).symm

section Item

variable {canvas : Canvas} {preset : ResolvedPreset} {item : ComposeItem}

/-- What plays has a length above zero, and its difference is in the range. -/
theorem checked_span (checked : validateItem canvas item = .ok ()) {span : Int} (plays : item.spanCs = some span) :
    0 < span ∧ span ≤ maxValue := by
  rw [validateItem, guarded_ok, guarded_ok, guarded_ok, guarded_ok, guarded_ok, guarded_ok] at checked
  have timed := checked.2.2.2.2.2.2
  unfold ComposeItem.spanCs at plays
  cases isTime : item.time with
  | span startCs endCs =>
    rw [isTime] at timed plays
    rw [validateTime, guarded_ok, guarded_ok] at timed
    cases plays
    have high := (int64_range endCs).2
    have bounds := timed.1
    have order := timed.2.1
    dsimp only
    omega
  | outroSpan startCs endCs =>
    rw [isTime] at timed
    cases timed
  | still | image =>
    rw [isTime] at plays
    cases plays

theorem checked_pixels (checked : validateItem canvas item = .ok ())
    (canvasChecked : validateCanvas canvas preset = .ok ()) :
    pixels item ≤ 4096 * 4096 := by
  rw [validateItem, guarded_ok, guarded_ok, guarded_ok, guarded_ok] at checked
  rw [validateCanvas, guarded_ok, guarded_ok, guarded_ok] at canvasChecked
  have sides := canvasChecked.2.2.1
  have within := checked.2.2.2.1
  have xHigh := (int64_range item.dest.x).2
  have wHigh := (int64_range item.dest.w).2
  unfold saturatingAdd saturate minValue at within
  unfold maxCanvasSide at sides
  unfold maxValue at xHigh wHigh within
  have wide : item.dest.w.toInt.toNat ≤ 4096 := by omega
  have high : item.dest.h.toInt.toNat ≤ 4096 := by omega
  exact Nat.mul_le_mul wide high

end Item

section Buffers

variable {doc : ResolvedCompose} {item : ComposeItem}

/-- The sum that rounds up does not overflow for a short span. -/
def Summable (doc : ResolvedCompose) (item : ComposeItem) : Prop :=
  ∀ span, item.spanCs = some span → span < doc.targetCs → doc.targetCs + span ≤ maxValue

/-- A span above zero, in the range. -/
def Plays (item : ComposeItem) : Prop := ∀ span, item.spanCs = some span → 0 < span ∧ span ≤ maxValue

theorem buffered_span (plays : Plays item) {span : Int} (isSpan : item.spanCs = some span) :
    bufferedFrames doc item = (spanLoop span doc).map fun looped => looped.elim 0 fun passes => passes.2.toNat := by
  have positive := plays span isSpan
  obtain ⟨bounds, isBounds, rfl⟩ := Option.map_eq_some_iff.mp isSpan
  rw [bufferedFrames, isBounds]
  have length := @i64_ok (bounds.2.toInt - bounds.1.toInt) (by unfold minValue; omega) positive.2
  change (i64 (bounds.2.toInt - bounds.1.toInt) >>= _) = _
  rw [length]
  change (spanLoop (bounds.2.toInt - bounds.1.toInt) doc >>= _) = _
  cases spanLoop (bounds.2.toInt - bounds.1.toInt) doc <;> rfl

theorem buffered_still (still : item.spanCs = none) : bufferedFrames doc item = .ok 1 := by
  rw [bufferedFrames, Option.map_eq_none_iff.mp still]

theorem declared_loops {span : Int} (plays : Plays item) (isSpan : item.spanCs = some span)
    (short : span < doc.targetCs)
    (fits : doc.targetCs + span ≤ maxValue) : declaredFrames doc item = (max (framesFor span doc.fps) 1).toNat := by
  rw [declaredFrames, isSpan]
  dsimp only
  rw [span_loops (plays span isSpan).1 short fits]

theorem declared_long {span : Int} (isSpan : item.spanCs = some span) (long : doc.targetCs ≤ span) :
    declaredFrames doc item = 0 := by
  rw [declaredFrames, isSpan]
  dsimp only
  rw [span_long long]

theorem declared_still (still : item.spanCs = none) : declaredFrames doc item = 1 := by
  rw [declaredFrames, still]

theorem buffered_cases (plays : Plays item) :
    (Summable doc item ∧ bufferedFrames doc item = .ok (declaredFrames doc item)) ∨
      (¬Summable doc item ∧ bufferedFrames doc item = .error .overflow) := by
  cases isSpan : item.spanCs with
  | none =>
    left
    constructor
    · intro span absent
      rw [isSpan] at absent
      cases absent
    · rw [buffered_still isSpan, declared_still isSpan]
  | some span =>
    have own : Summable doc item ↔ (span < doc.targetCs → doc.targetCs + span ≤ maxValue) := by
      constructor
      · intro summable
        exact summable span isSpan
      · intro fits other isOther
        rw [isSpan] at isOther
        cases isOther
        exact fits
    rw [own, buffered_span plays isSpan]
    by_cases short : span < doc.targetCs
    · by_cases fits : doc.targetCs + span ≤ maxValue
      · left
        rw [declared_loops plays isSpan short fits, span_loops (plays span isSpan).1 short fits]
        exact ⟨fun _ => fits, rfl⟩
      · right
        rw [span_overflows (plays span isSpan).1 short (by omega)]
        exact ⟨fun all => fits (all short), rfl⟩
    · left
      rw [declared_long isSpan (by omega), span_long (by omega)]
      exact ⟨fun isShort => absurd isShort short, rfl⟩

theorem frames_for_le (span : Int) (fps : Nat) : framesFor span fps ≤ maxValue := by
  unfold framesFor saturatingAdd saturate maxValue minValue
  omega

theorem declared_le (plays : Plays item) (summable : Summable doc item) : declaredFrames doc item ≤ 2 ^ 63 := by
  cases isSpan : item.spanCs with
  | none =>
    rw [declared_still isSpan]
    decide
  | some span =>
    by_cases short : span < doc.targetCs
    · have count := frames_for_le span doc.fps
      rw [declared_loops plays isSpan short (summable span isSpan short)]
      unfold maxValue at count
      omega
    · rw [declared_long isSpan (by omega)]
      omega

theorem buffer_bytes_eq {frames : Nat} (small : frames ≤ 2 ^ 63) (within : pixels item ≤ 4096 * 4096) :
    bufferBytes frames item = frames * pixels item * 3 / 2 := by
  have product : frames * pixels item ≤ 2 ^ 63 * (4096 * 4096) := Nat.mul_le_mul small within
  unfold bufferBytes loopBytesPerPixelNum loopBytesPerPixelDen wideMax
  rw [Nat.min_eq_left (by omega), Nat.min_eq_left (by omega)]

end Buffers

theorem fold_saturating (counts : List Nat) (limit start : Nat) :
    counts.foldl (fun bytes count => min (bytes + count) limit) (min start limit) =
      min (start + counts.sum) limit := by
  induction counts generalizing start with
  | nil => rw [List.foldl_nil, List.sum_nil, Nat.add_zero]
  | cons count rest ih =>
    have first : min (min start limit + count) limit = min (start + count) limit := by omega
    rw [List.foldl_cons, first, ih, List.sum_cons, Nat.add_assoc]

theorem fold_returns {Elem : Type} {visit : Elem → Resolved Nat} {count : Elem → Nat} {combine : Nat → Nat → Elem → Nat}
    (elems : List Elem) (start : Nat) (returns : ∀ elem ∈ elems, visit elem = .ok (count elem)) :
    elems.foldlM (fun bytes elem => do
      let frames ← visit elem
      return combine bytes frames elem) start =
      (.ok (elems.foldl (fun bytes elem => combine bytes (count elem) elem) start) : Resolved Nat) := by
  induction elems generalizing start with
  | nil => rfl
  | cons first rest ih =>
    rw [List.forall_mem_cons] at returns
    rw [List.foldlM_cons, returns.1, List.foldl_cons]
    exact ih _ returns.2

theorem fold_overflows {Elem : Type} {visit : Elem → Resolved Nat} {combine : Nat → Nat → Elem → Nat}
    (elems : List Elem) (start : Nat)
    (cases_ : ∀ elem ∈ elems, (∃ count, visit elem = .ok count) ∨ visit elem = .error .overflow)
    (overflows : ∃ elem ∈ elems, visit elem = .error .overflow) :
    elems.foldlM (fun bytes elem => do
      let frames ← visit elem
      return combine bytes frames elem) start = (.error .overflow : Resolved Nat) := by
  induction elems generalizing start with
  | nil =>
    obtain ⟨elem, absent, -⟩ := overflows
    cases absent
  | cons first rest ih =>
    rw [List.forall_mem_cons] at cases_
    rw [List.foldlM_cons]
    rcases cases_.1 with ⟨count, returned⟩ | overflow
    · rw [returned]
      apply ih _ cases_.2
      rw [List.exists_mem_cons_iff, returned] at overflows
      rcases overflows with absurd_ | later
      · cases absurd_
      · exact later
    · rw [overflow]
      rfl

section Guard

variable {doc : ResolvedCompose} {limits : ComposeLimits}

theorem loop_memory_eq (plays : ∀ item ∈ doc.items, Plays item) (within : ∀ item ∈ doc.items, pixels item ≤ 4096 * 4096)
    (summable : ∀ item ∈ doc.items, Summable doc item) :
    loopMemory doc = .ok (min (doc.items.map fun item => declaredFrames doc item * pixels item * 3 / 2).sum wideMax) := by
  have returns : ∀ item ∈ doc.items, bufferedFrames doc item = .ok (declaredFrames doc item) := by
    intro item isItem
    rcases buffered_cases (plays item isItem) with ⟨-, buffered⟩ | ⟨overflows, -⟩
    · exact buffered
    · exact absurd (summable item isItem) overflows
  have bytes : (doc.items.map fun item => bufferBytes (declaredFrames doc item) item) =
      doc.items.map fun item => declaredFrames doc item * pixels item * 3 / 2 := by
    apply List.map_congr_left
    intro item isItem
    exact buffer_bytes_eq (declared_le (plays item isItem) (summable item isItem)) (within item isItem)
  have folded := fold_saturating (doc.items.map fun item => bufferBytes (declaredFrames doc item) item) wideMax 0
  rw [bytes, Nat.zero_add, Nat.zero_min, ← bytes, List.foldl_map] at folded
  rw [loopMemory, fold_returns doc.items 0 returns, folded, bytes]

theorem guard_eq (plays : ∀ item ∈ doc.items, Plays item) (within : ∀ item ∈ doc.items, pixels item ≤ 4096 * 4096)
    (summable : ∀ item ∈ doc.items, Summable doc item) : checkLoopMemory doc limits =
      if limits.maxMosaicLoopMb.toNat * bytesPerMb <
          (doc.items.map fun item => declaredFrames doc item * pixels item * 3 / 2).sum then
        .error (.rejected "loop_memory")
      else .ok () := by
  have small := limits.maxMosaicLoopMb.toNat_lt
  have budget : min (limits.maxMosaicLoopMb.toNat * bytesPerMb) wideMax = limits.maxMosaicLoopMb.toNat * bytesPerMb := by
    apply Nat.min_eq_left
    unfold bytesPerMb wideMax
    omega
  have below : limits.maxMosaicLoopMb.toNat * bytesPerMb < wideMax := by
    unfold bytesPerMb wideMax
    omega
  simp only [checkLoopMemory, loop_memory_eq plays within summable, budget, bind, Except.bind]
  by_cases refused : limits.maxMosaicLoopMb.toNat * bytesPerMb <
      (doc.items.map fun item => declaredFrames doc item * pixels item * 3 / 2).sum
  · rw [if_pos refused, if_pos (Nat.lt_min.mpr ⟨refused, below⟩)]
  · rw [if_neg refused, if_neg fun both => refused (Nat.lt_min.mp both).1]

theorem guard_overflows (plays : ∀ item ∈ doc.items, Plays item)
    (exceeds : ∃ item ∈ doc.items, ¬Summable doc item) : checkLoopMemory doc limits = .error .overflow := by
  have overflow : loopMemory doc = .error .overflow := by
    apply fold_overflows
    · intro item isItem
      rcases buffered_cases (plays item isItem) with ⟨-, buffered⟩ | ⟨-, overflows⟩
      · exact .inl ⟨_, buffered⟩
      · exact .inr overflows
    · obtain ⟨item, isItem, notSummable⟩ := exceeds
      rcases buffered_cases (plays item isItem) with ⟨summable, -⟩ | ⟨-, overflows⟩
      · exact absurd summable notSummable
      · exact ⟨item, isItem, overflows⟩
  rw [checkLoopMemory, overflow]
  rfl

end Guard

/-- A value or a refusal, no overflow. -/
def Settles {Result : Type} (result : Resolved Result) : Prop :=
  (∃ value, result = .ok value) ∨ ∃ reason, result = .error (.rejected reason)

theorem settles_ok {Result : Type} (value : Result) : Settles (.ok value) := .inl ⟨value, rfl⟩

theorem settles_guarded {Result : Type} {condition : Prop} [Decidable condition] {reason : String}
    {rest : Resolved Result}
    (later : Settles rest) : Settles (if condition then .error (.rejected reason) else rest) := by
  split
  · exact .inr ⟨reason, rfl⟩
  · exact later

section Checks

variable {request : ComposeRequest} {preset : ResolvedPreset} {limits : ComposeLimits}

theorem count_settles : Settles (validateItemCount request limits) :=
  settles_guarded (settles_guarded (settles_ok ()))

theorem canvas_settles {canvas : Canvas} : Settles (validateCanvas canvas preset) :=
  settles_guarded (settles_guarded (settles_guarded (settles_guarded (settles_guarded (settles_ok ())))))

theorem time_settles (time : ItemTime) : Settles (validateTime time) := by
  cases time with
  | span startCs endCs => exact settles_guarded (settles_guarded (settles_ok ()))
  | outroSpan startCs endCs => exact .inr ⟨_, rfl⟩
  | still atCs => exact settles_guarded (settles_ok ())
  | image => exact settles_ok ()

theorem item_settles (canvas : Canvas) (item : ComposeItem) : Settles (validateItem canvas item) :=
  settles_guarded (settles_guarded (settles_guarded (settles_guarded (settles_guarded (settles_guarded
    (time_settles item.time))))))

theorem items_settle (canvas : Canvas) (items : List ComposeItem) :
    (resolveItems items canvas preset = .ok (items.map (resolveItem preset)) ∧
        ∀ item ∈ items, validateItem canvas item = .ok ()) ∨
      (∃ item ∈ items, validateItem canvas item ≠ .ok ()) ∧
        ∃ reason, resolveItems items canvas preset = .error (.rejected reason) := by
  unfold resolveItems
  induction items with
  | nil =>
    left
    refine ⟨rfl, ?_⟩
    intro item absent
    cases absent
  | cons item rest ih =>
    rw [List.mapM_cons]
    rcases item_settles canvas item with ⟨⟨⟩, valid⟩ | ⟨reason, refused⟩
    · have first : (do
          let _ ← validateItem canvas item
          return resolveItem preset item : Resolved ComposeItem) = .ok (resolveItem preset item) := by
        rw [valid]
        rfl
      rw [first]
      rcases ih with ⟨resolved, allValid⟩ | ⟨⟨other, isOther, invalid⟩, reason, refused⟩
      · left
        rw [resolved, List.forall_mem_cons]
        exact ⟨rfl, valid, allValid⟩
      · right
        rw [refused]
        exact ⟨⟨other, List.mem_cons_of_mem item isOther, invalid⟩, reason, rfl⟩
    · right
      refine ⟨⟨item, List.mem_cons_self, ?_⟩, reason, ?_⟩
      · rw [refused]
        intro absurd_
        cases absurd_
      · rw [refused]
        rfl

theorem resolve_item_pixels (item : ComposeItem) : pixels (resolveItem preset item) = pixels item := rfl

theorem longest_span_eq {items : List ComposeItem} (plays : ∀ item ∈ items, Plays item) :
    longestSpanCs items = .ok (items.filterMap ComposeItem.spanCs).max? := by
  have lengths : ((items.filterMap fun item => item.time.bounds).mapM fun bounds =>
      i64 (bounds.2.toInt - bounds.1.toInt)) =
      .ok ((items.filterMap fun item => item.time.bounds).map fun bounds => bounds.2.toInt - bounds.1.toInt) := by
    apply mapM_returns
    intro bounds isBounds
    obtain ⟨item, isItem, plays_⟩ := List.mem_filterMap.mp isBounds
    have isSpan : item.spanCs = some (bounds.2.toInt - bounds.1.toInt) := by
      rw [ComposeItem.spanCs, plays_]
      rfl
    have inside := plays item isItem _ isSpan
    apply i64_ok
    · unfold minValue
      omega
    · exact inside.2
  rw [longestSpanCs, lengths, List.map_filterMap]
  rfl

theorem items_play (checked : ∀ item ∈ request.items, validateItem request.canvas item = .ok ()) :
    ∀ item ∈ request.items, Plays item := by
  intro item isItem span isSpan
  exact checked_span (checked item isItem) isSpan

theorem resolved_spans (items : List ComposeItem) :
    (items.map (resolveItem preset)).filterMap ComposeItem.spanCs = items.filterMap ComposeItem.spanCs := by
  rw [List.filterMap_map]
  rfl

theorem target_settles (checked : ∀ item ∈ request.items, validateItem request.canvas item = .ok ()) :
    (resolveTargetCs request.length (request.items.map (resolveItem preset)) preset limits =
        .ok (lengthCs request preset limits) ∧
      ∀ seconds, request.length = .cap seconds → (positive seconds.toNat).isSome = true) ∨
      (∃ seconds, request.length = .cap seconds ∧ ¬(positive seconds.toNat).isSome = true) ∧ ∃ reason,
      resolveTargetCs request.length (request.items.map (resolveItem preset)) preset limits =
        .error (.rejected reason) := by
  unfold resolveTargetCs lengthCs askedCs requestedCs
  cases request.length with
  | cap seconds =>
    by_cases isPositive : (positive seconds.toNat).isSome = true
    · left
      constructor
      · dsimp only
        rw [if_pos isPositive]
        rfl
      · intro other same
        cases same
        exact isPositive
    · right
      dsimp only
      rw [if_neg isPositive]
      exact ⟨⟨seconds, rfl, isPositive⟩, _, rfl⟩
  | longestLoopOnce =>
    left
    have plays : ∀ item ∈ request.items.map (resolveItem preset), Plays item := by
      intro item isItem
      obtain ⟨source, isSource, rfl⟩ := List.mem_map.mp isItem
      exact items_play checked source isSource
    constructor
    · dsimp only
      rw [longest_span_eq plays, resolved_spans]
      rfl
    · intro seconds absurd_
      cases absurd_

/-- The document of a request that passes the checks. -/
def documentOf (request : ComposeRequest) (preset : ResolvedPreset) (limits : ComposeLimits) (background : Text) :
    ResolvedCompose where
  canvasW := request.canvas.w
  canvasH := request.canvas.h
  background := background
  fps := cappedFps request.fps preset
  targetCs := lengthCs request preset limits
  items := request.items.map (resolveItem preset)

/-- A request is refused in front of the guard, or only the guard is left. -/
theorem resolve_cases :
    (¬Checked request preset limits ∧ ∃ reason, resolveCompose request preset limits = .error (.rejected reason)) ∨
      (Checked request preset limits ∧ ∃ background, resolveCompose request preset limits =
        (checkLoopMemory (documentOf request preset limits background) limits).map fun _ =>
          documentOf request preset limits background) := by
  unfold resolveCompose
  rcases @count_settles request limits with ⟨⟨⟩, count⟩ | ⟨reason, refused⟩
  case inr =>
    left
    refine ⟨?_, reason, ?_⟩
    · intro checked
      rw [checked.count] at refused
      cases refused
    · rw [refused]
      rfl
  rcases @canvas_settles preset request.canvas with ⟨⟨⟩, canvas⟩ | ⟨reason, refused⟩
  case inr =>
    left
    refine ⟨?_, reason, ?_⟩
    · intro checked
      rw [checked.canvas] at refused
      cases refused
    · simp only [count, refused, bind, Except.bind]
  cases isColor : normalizeColor request.canvas.background with
  | none =>
    left
    refine ⟨?_, "bad_background", ?_⟩
    · intro checked
      have some_ := checked.background
      rw [isColor] at some_
      cases some_
    · simp only [count, canvas, bind, Except.bind]
  | some background =>
    have colored : (normalizeColor request.canvas.background).isSome = true := by rw [isColor]; rfl
    by_cases outside : request.fps = 0 ∨ maxComposeFps < request.fps.toNat
    · have refused : resolveFps request.fps preset = .error (.rejected "fps_out_of_range") := if_pos outside
      left
      refine ⟨?_, "fps_out_of_range", ?_⟩
      · intro checked
        rw [checked.fps] at refused
        cases refused
      · simp only [count, canvas, refused, bind, Except.bind]
    have fps : resolveFps request.fps preset = .ok (cappedFps request.fps preset) := if_neg outside
    rcases @items_settle preset request.canvas request.items with
      ⟨items, valid⟩ | ⟨⟨item, isItem, invalid⟩, reason, refused⟩
    case inr =>
      left
      refine ⟨?_, reason, ?_⟩
      · intro checked
        exact invalid (checked.items item isItem)
      · simp only [count, canvas, fps, refused, bind, Except.bind]
    rcases @target_settles request preset limits valid with
      ⟨target, length⟩ | ⟨⟨seconds, isCap, notPositive⟩, reason, refused⟩
    case inr =>
      left
      refine ⟨?_, reason, ?_⟩
      · intro checked
        exact notPositive (checked.length seconds isCap)
      · simp only [count, canvas, fps, items, refused, bind, Except.bind]
    right
    refine ⟨⟨count, canvas, colored, fps, valid, length⟩,
      if coversCanvas (request.items.map (resolveItem preset)) request.canvas.w request.canvas.h then hiddenBackground
      else background, ?_⟩
    simp only [count, canvas, fps, items, target, bind, Except.bind]
    rfl

end Checks

section Document

variable {request : ComposeRequest} {preset : ResolvedPreset} {limits : ComposeLimits} {background : Text}

theorem document_items {Property : ComposeItem → Prop} :
    (∀ item ∈ (documentOf request preset limits background).items, Property item) ↔
      ∀ item ∈ request.items, Property (resolveItem preset item) := List.forall_mem_map

theorem capped_fps_pos (fps : UInt32) : 0 < cappedFps fps preset := Nat.lt_of_lt_of_le Nat.zero_lt_one
    (Nat.le_max_right _ _)

theorem summable_iff : (∀ item ∈ (documentOf request preset limits background).items,
      Summable (documentOf request preset limits background) item) ↔
    ∀ span, Short request preset limits span → lengthCs request preset limits + span ≤ maxValue := by
  rw [document_items]
  constructor
  · rintro summable span ⟨⟨item, isItem, isSpan⟩, short⟩
    exact summable item isItem span isSpan short
  · intro fits item isItem span isSpan short
    exact fits span ⟨⟨item, isItem, isSpan⟩, short⟩

theorem guard_frames_eq {item : ComposeItem} (plays : Plays item)
    (summable : Summable (documentOf request preset limits background) (resolveItem preset item)) :
    declaredFrames (documentOf request preset limits background) (resolveItem preset item) =
      guardFrames request preset limits item := by
  have resolvedPlays : Plays (resolveItem preset item) := plays
  cases isSpan : item.spanCs with
  | none =>
    have still : (resolveItem preset item).spanCs = none := isSpan
    rw [declared_still still, guardFrames, isSpan]
  | some span =>
    have isResolved : (resolveItem preset item).spanCs = some span := isSpan
    rw [guardFrames, isSpan]
    dsimp only
    by_cases short : span < lengthCs request preset limits
    · have running := @capped_fps_pos preset request.fps
      have positive := (plays span isSpan).1
      have product : 1 ≤ span * (cappedFps request.fps preset : Int) := by
        have one : 1 * 1 ≤ span * (cappedFps request.fps preset : Int) :=
          Int.mul_le_mul positive (by omega) (by omega) (le_of_lt positive)
        omega
      have frames := frames_for_eq positive running
      rw [if_pos short, declared_loops resolvedPlays isResolved short (summable span isResolved short)]
      change (max (framesFor span (cappedFps request.fps preset)) 1).toNat = _
      rw [frames]
      unfold maxValue
      omega
    · have long : (documentOf request preset limits background).targetCs ≤ span := by
        change lengthCs request preset limits ≤ span
        omega
      rw [if_neg short, declared_long isResolved long]

theorem guard_bytes_eq (plays : ∀ item ∈ request.items, Plays item)
    (summable : ∀ item ∈ (documentOf request preset limits background).items,
      Summable (documentOf request preset limits background) item) :
    ((documentOf request preset limits background).items.map fun item =>
        declaredFrames (documentOf request preset limits background) item * pixels item * 3 / 2).sum =
      guardBytes request preset limits := by
  have each := document_items.mp summable
  have bytes : ((documentOf request preset limits background).items.map fun item =>
      declaredFrames (documentOf request preset limits background) item * pixels item * 3 / 2) =
      request.items.map fun item => guardFrames request preset limits item * pixels item * 3 / 2 := by
    change (request.items.map (resolveItem preset)).map _ = _
    rw [List.map_map]
    apply List.map_congr_left
    intro item isItem
    rw [Function.comp_apply, guard_frames_eq (plays item isItem) (each item isItem), resolve_item_pixels]
  rw [bytes, guardBytes]

theorem length_within : 1 ≤ lengthCs request preset limits ∧
    (lengthCs request preset limits ≤ 100 * (capSeconds preset limits).toNat ↔
      1 ≤ (capSeconds preset limits).toNat) := by
  have cast := of_word_le (capSeconds preset limits)
  unfold lengthCs clampCs saturatingMul saturate minValue maxValue
  omega

/-- Where no sum overflows and the guard passes, the document is filled exactly if the cap is no zero and no frame
count saturates. -/
theorem filled_iff (plays : ∀ item ∈ request.items, Plays item)
    (summable : ∀ item ∈ (documentOf request preset limits background).items,
      Summable (documentOf request preset limits background) item)
    (passes : guardBytes request preset limits ≤ limits.maxMosaicLoopMb.toNat * bytesPerMb) :
    Filled preset limits (documentOf request preset limits background) ↔
      1 ≤ (capSeconds preset limits).toNat ∧
        ∀ span, Short request preset limits span → span * cappedFps request.fps preset ≤ mostCounted := by
  have within := @length_within request preset limits
  have running := @capped_fps_pos preset request.fps
  have each := document_items.mp summable
  constructor
  · intro filled
    refine ⟨within.2.mp filled.length.2, ?_⟩
    rintro span ⟨⟨item, isItem, isSpan⟩, short⟩
    have positive := (plays item isItem span isSpan).1
    obtain ⟨extra, frames, looped, -, enough⟩ :=
      filled.loops (resolveItem preset item) (List.mem_map_of_mem isItem) span isSpan short
    rw [span_loops positive short (each item isItem span isSpan short)] at looped
    cases looped
    exact (frames_enough_iff positive running).mp enough
  · rintro ⟨capped, counted⟩
    refine ⟨?_, ?_, within.1, within.2.mpr capped⟩
    · intro resolved isResolved span isSpan short
      obtain ⟨item, isItem, rfl⟩ := List.mem_map.mp isResolved
      have positive := (plays item isItem span isSpan).1
      refine ⟨_, _, span_loops positive short (each item isItem span isSpan short), ?_, ?_⟩
      · rw [Int.sub_add_cancel]
        exact least_passes positive
      · exact (frames_enough_iff positive running).mpr (counted span ⟨⟨item, isItem, isSpan⟩, short⟩)
    · rw [guard_bytes_eq plays summable]
      exact passes

end Document

/-- A composition is resolved or refused without overflow, and a document that is returned is filled, exactly under
`Sized`. -/
theorem admits_iff (request : ComposeRequest) (preset : ResolvedPreset) (limits : ComposeLimits) :
    Admits request preset limits ↔ Sized request preset limits := by
  unfold Admits Sized
  rcases @resolve_cases request preset limits with ⟨unchecked, reason, refused⟩ | ⟨checked, background, resolved⟩
  · refine iff_of_true ⟨?_, ?_⟩ (.inl unchecked)
    · rw [refused]
      intro same
      cases same
    · intro doc returned
      rw [refused] at returned
      cases returned
  · have plays := items_play checked.items
    have documentPlays : ∀ item ∈ (documentOf request preset limits background).items, Plays item :=
      document_items.mpr plays
    have within : ∀ item ∈ (documentOf request preset limits background).items, pixels item ≤ 4096 * 4096 := by
      rw [document_items]
      intro item isItem
      exact checked_pixels (checked.items item isItem) checked.canvas
    rw [or_iff_right (not_not_intro checked), resolved, ← @summable_iff request preset limits background]
    by_cases summable : ∀ item ∈ (documentOf request preset limits background).items,
        Summable (documentOf request preset limits background) item
    · rw [guard_eq documentPlays within summable, guard_bytes_eq plays summable, and_iff_right summable]
      by_cases refuses : limits.maxMosaicLoopMb.toNat * bytesPerMb < guardBytes request preset limits
      · rw [if_pos refuses]
        refine iff_of_true ⟨?_, ?_⟩ (.inl refuses)
        · intro same
          cases same
        · intro doc returned
          cases returned
      · rw [if_neg refuses, or_iff_right refuses, ← filled_iff plays summable (Nat.le_of_not_lt refuses)]
        constructor
        · rintro ⟨-, filled⟩
          exact filled _ rfl
        · intro filled
          refine ⟨?_, ?_⟩
          · intro same
            cases same
          · intro doc returned
            cases returned
            exact filled
    · have exceeds : ∃ item ∈ (documentOf request preset limits background).items,
          ¬Summable (documentOf request preset limits background) item := by
        by_contra all
        apply summable
        intro item isItem
        by_contra notSummable
        exact all ⟨item, isItem, notSummable⟩
      rw [guard_overflows documentPlays exceeds]
      refine iff_of_false ?_ ?_
      · rintro ⟨noOverflow, -⟩
        exact noOverflow rfl
      · rintro ⟨all, -⟩
        exact summable all

/-- A corner of the canvas that plays from its beginning. -/
def corner (x endCs : Int64) : ComposeItem where
  sha256 := ['a']
  source := .file
  src := ⟨0, 0, 64, 64⟩
  transform := ⟨0, false⟩
  dest := ⟨x, 0, 64, 64⟩
  time := .span 0 endCs
  audio := false

/-- A second beside a span that ends near the end of the range, under limits as large. -/
def endlessRequest : ComposeRequest :=
  ⟨⟨640, 480, "#000000".toList⟩, 25, .longestLoopOnce, [corner 0 9223372036854775800, corner 64 100]⟩

def plainPreset : ResolvedPreset := ⟨.mp4, none, none, none⟩

def endlessLimits : ComposeLimits := ⟨4, 1024, 30, 92233720368547758⟩

theorem endless_overflows : ¬Admits endlessRequest plainPreset endlessLimits := by
  have overflows : resolveCompose endlessRequest plainPreset endlessLimits = .error .overflow := by decide +kernel
  intro admits
  exact admits.1 overflows

end Panoptikon.Transcode.Compose
