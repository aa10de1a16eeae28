import Mathlib.Algebra.Order.Field.Rat
import Mathlib.Data.List.Sort
import Panoptikon.Foundation.Chunks

/-!
# Outro cards

The pixel logic of `media_tools/outro.rs`. Medians are exact halves and a fraction of two
counts below 2^48 rounds to the other side of no constant here, so the `f64` values are
rational numbers.
-/

namespace Panoptikon.Media

open Foundation

namespace Outro

def cardBg : List Nat := [12, 13, 25]

def tol : ℚ := 8

def bgfracTol : ℚ := 12

def bgfracMin : ℚ := 45 / 100

def minRunS : ℚ := 1

def minLeadS : ℚ := 40 / 100

def kCapS : ℚ := 5

def inkDelta : Int := 25

def inkRowsMax : ℚ := 60 / 100

/-- `FPS` -/
def fps : Nat := 30

/-- `W` -/
def width : Nat := 48

/-- An even count averages the two middle values. -/
def medianU8 (values : List UInt8) : ℚ :=
  let sorted := (values.map UInt8.toNat).insertionSort (· ≤ ·)
  let mid := values.length / 2
  if values.isEmpty then 0
  else if values.length % 2 = 1 then sorted.getD mid 0
  else (sorted.getD (mid - 1) 0 + sorted.getD mid 0 : ℚ) / 2

/-- `step_by(3)` -/
def everyThird : List UInt8 → List UInt8
  | [] => []
  | [first] => [first]
  | [first, _] => [first]
  | first :: _ :: _ :: rest => first :: everyThird rest

/-- One median for each channel. -/
def frameMedian (frame : List UInt8) : List ℚ :=
  [0, 1, 2].map fun index => medianU8 (everyThird (frame.drop index))

def maxDistance (values reference : List ℚ) : ℚ :=
  (List.zipWith (fun value other => |value - other|) values reference).foldl max 0

def onBackground (median : List ℚ) : Bool := maxDistance median (cardBg.map fun level => (level : ℚ)) ≤ tol

def pixelValues (pixel : List UInt8) : List ℚ := pixel.map fun value => (value.toNat : ℚ)

def backgroundFraction (frame : List UInt8) (median : List ℚ) : ℚ :=
  let pixels := frame.length / 3
  if pixels = 0 then 0
  else
    let near := ((Chunks.chunks 3 frame).filter fun pixel => maxDistance (pixelValues pixel) median ≤ bgfracTol).length
    near / pixels

def frameIsCard (frame : List UInt8) : Bool :=
  let median := frameMedian frame
  onBackground median && bgfracMin ≤ backgroundFraction frame median

def isInk (pixel : List UInt8) : Bool :=
  inkDelta < (List.zipWith (fun value level => |(value.toNat : Int) - level|) pixel
    (cardBg.map fun level => (level : Int))).foldl max 0

/-- The part of the rows that carry any ink. -/
def inkRowFraction (frame : List UInt8) : ℚ :=
  let rowLen := width * 3
  let rows := frame.length / rowLen
  if rows = 0 then 0
  else
    let inked := ((Chunks.chunks rowLen frame).filter fun row => (Chunks.chunks 3 row).any isInk).length
    inked / rows

/-- `RUN_MEAN_MIN` -/
def runMeanMin : ℚ := 90 / 100

def longEnough (trues length : Nat) : Bool := runMeanMin ≤ (trues : ℚ) / length

/-- The loop of `terminal_run_start` over the suffixes, the shortest first: the start and the cards so far. -/
def terminalRunFrom (count : Nat) : List Bool → Nat × Nat
  | [] => (count, 0)
  | isCard :: later =>
      let (start, suffixTrue) := terminalRunFrom count later
      if !isCard then (start, suffixTrue)
      else
        let suffixLen := later.length + 1
        if longEnough (suffixTrue + 1) suffixLen then (count - suffixLen, suffixTrue + 1)
        else (start, suffixTrue + 1)

def terminalRunStart (card : List Bool) : Nat := (terminalRunFrom card.length card).1

/-- A card frame from which on there are cards enough. -/
def IsRunStart (card : List Bool) (index : Nat) : Prop :=
  card[index]? = some true ∧ runMeanMin ≤ (((card.drop index).count true : Nat) : ℚ) / (card.length - index : Nat)

theorem run_from_trues (count : Nat) (card : List Bool) : (terminalRunFrom count card).2 = card.count true := by
  induction card with
  | nil => rfl
  | cons isCard later ih =>
    rw [terminalRunFrom]
    dsimp only
    cases isCard with
    | false =>
      rw [Bool.not_false, if_pos rfl, ih]
      rfl
    | true =>
      rw [Bool.not_true, if_neg Bool.false_ne_true, List.count_cons_self, ← ih]
      split <;> rfl

/-- The first start from a place on, or the end of the frames. -/
structure LeastStart (card : List Bool) (place start : Nat) : Prop where
  starts : start = card.length ∨ place ≤ start ∧ IsRunStart card start
  least : ∀ index, place ≤ index → index < start → ¬IsRunStart card index

theorem LeastStart.here {card : List Bool} {place : Nat} (starts : IsRunStart card place) :
    LeastStart card place place := by
  refine ⟨.inr ⟨Nat.le_refl _, starts⟩, ?_⟩
  intro index past below
  omega

theorem LeastStart.next {card : List Bool} {place start : Nat} (later : LeastStart card (place + 1) start)
    (passed : ¬IsRunStart card place) : LeastStart card place start := by
  constructor
  · apply later.starts.imp_right
    rintro ⟨past, starts⟩
    exact ⟨Nat.le_of_succ_le past, starts⟩
  · intro index past below
    by_cases isPlace : index = place
    · rw [isPlace]
      exact passed
    · exact later.least index (by omega) below

theorem is_run_start_cons {before later : List Bool} {isCard : Bool} :
    IsRunStart (before ++ isCard :: later) before.length ↔
      isCard = true ∧ longEnough (later.count true + 1) (later.length + 1) = true := by
  have here : (before ++ isCard :: later)[before.length]? = some isCard := by
    rw [List.getElem?_append_right (Nat.le_refl _), Nat.sub_self]
    rfl
  have length : (before ++ isCard :: later).length - before.length = later.length + 1 := by
    rw [List.length_append, List.length_cons]
    omega
  rw [IsRunStart, here, List.drop_left, length, Option.some.injEq]
  apply and_congr_right
  rintro rfl
  rw [List.count_cons_self, longEnough, decide_eq_true_iff]

/-- Induction on the frames that the loop has passed: the start so far is the least from there on. -/
theorem run_from_least (before later : List Bool) :
    LeastStart (before ++ later) before.length (terminalRunFrom (before ++ later).length later).1 := by
  induction later generalizing before with
  | nil =>
    refine ⟨.inl rfl, ?_⟩
    intro index past below
    rw [terminalRunFrom, List.append_nil] at below
    omega
  | cons isCard later ih =>
    have hypothesis := ih (before ++ [isCard])
    rw [List.append_assoc, List.singleton_append, List.length_append, List.length_singleton] at hypothesis
    have trues := run_from_trues (before ++ isCard :: later).length later
    have place : (before ++ isCard :: later).length - (later.length + 1) = before.length := by
      rw [List.length_append, List.length_cons]
      omega
    rw [terminalRunFrom]
    dsimp only
    rw [trues, place]
    cases isCard with
    | false =>
      rw [Bool.not_false, if_pos rfl]
      apply hypothesis.next
      rw [is_run_start_cons]
      exact fun starts => Bool.false_ne_true starts.1
    | true =>
      rw [Bool.not_true, if_neg Bool.false_ne_true]
      split
      · rename_i enough
        exact LeastStart.here (is_run_start_cons.mpr ⟨rfl, enough⟩)
      · rename_i short
        apply hypothesis.next
        rw [is_run_start_cons]
        exact fun starts => short starts.2

theorem terminal_run_start_least (card : List Bool) : LeastStart card 0 (terminalRunStart card) :=
  run_from_least [] card

inductive RejectReason where
  | gate
  | noRun
  | noBoundary
  | tooLong
  | layout

/-- Seconds of outro from the end of the file, or the rule that rejects. -/
def verdictFromTail (card : List Bool) (lastFrame : List UInt8) : Except RejectReason ℚ :=
  let count := card.length
  let start := terminalRunStart card
  let run : ℚ := (count - start : Nat) / fps
  let lead : ℚ := start / fps
  if run < minRunS then .error .noRun
  else if lead < minLeadS then .error .noBoundary
  else if kCapS < run then .error .tooLong
  else if inkRowsMax < inkRowFraction lastFrame then .error .layout
  else .ok run

end Outro

end Panoptikon.Media
