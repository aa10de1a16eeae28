import Panoptikon.Inferio.Transparency

/-!
# Batch caps of predict calls

A request's `max_batch` bounds a merged window, since admission goes by the
smallest cap among its members. A request that goes alone is cut at the window's
cap, which is the largest one queued.
-/

namespace Panoptikon.Inferio.Dispatch

open Foundation Panoptikon.Inferio

/-- As many units and bytes fit, the requests' own caps included. -/
structure WindowFits (cap byteBudget units bytes : Nat) (requests : List (Nat × Nat × Option Nat)) : Prop where
  underCap : units ≤ cap
  inBudget : bytes ≤ byteBudget
  underOwn : ∀ request ∈ requests, ∀ own, request.2.2 = some own → 0 < own → units ≤ own

theorem admit_cap_le (memberCap : Nat) (explicit : Option Nat) : admitCap memberCap explicit ≤ memberCap := by
  cases explicit with
  | none => exact Nat.le_refl _
  | some requestCap =>
    rw [admitCap]
    split
    · exact Nat.min_le_left _ _
    · exact Nat.le_refl _

theorem admit_cap_le_own (memberCap : Nat) {own : Nat} (positive : 0 < own) :
    admitCap memberCap (some own) ≤ own := by
  rw [admitCap, if_pos positive]
  exact Nat.min_le_right _ _

def unitsOf (requests : List (Nat × Nat × Option Nat)) : Nat := (requests.map fun request => request.1).sum

def bytesOf (requests : List (Nat × Nat × Option Nat)) : Nat := (requests.map fun request => request.2.1).sum

theorem WindowFits.cons {memberCap byteBudget units bytes count size : Nat} {explicit : Option Nat}
    {requests : List (Nat × Nat × Option Nat)}
    (fits : WindowFits (admitCap memberCap explicit) byteBudget units bytes requests) :
    WindowFits memberCap byteBudget units bytes ((count, size, explicit) :: requests) := by
  refine ⟨Nat.le_trans fits.underCap (admit_cap_le _ _), fits.inBudget, ?_⟩
  intro request member own isOwn positive
  rcases List.mem_cons.mp member with rfl | later
  · dsimp only at isOwn
    subst isOwn
    exact Nat.le_trans fits.underCap (admit_cap_le_own _ positive)
  · exact fits.underOwn request later own isOwn positive

theorem window_take_loop_fits (byteBudget : Nat) (requests : List (Nat × Nat × Option Nat))
    (taken units bytes memberCap : Nat) (some_ : taken ≠ 0) :
    ∃ more, windowTakeLoop byteBudget requests taken units bytes memberCap = taken + more ∧
      (more = 0 ∨ WindowFits memberCap byteBudget (units + unitsOf (requests.take more))
        (bytes + bytesOf (requests.take more)) (requests.take more)) := by
  induction requests generalizing taken units bytes memberCap with
  | nil => exact ⟨0, rfl, .inl rfl⟩
  | cons request rest ih =>
    obtain ⟨count, size, explicit⟩ := request
    rw [windowTakeLoop]
    split
    · rename_i joins
      have joins := joins.resolve_left some_
      obtain ⟨more, isTaken, fits⟩ := ih (taken + 1) (units + count) (bytes + size) (admitCap memberCap explicit)
        (Nat.succ_ne_zero taken)
      have unitsCons : units + unitsOf (((count, size, explicit) :: rest).take (more + 1)) =
          units + count + unitsOf (rest.take more) := by
        rw [List.take_succ_cons, unitsOf, List.map_cons, List.sum_cons, ← Nat.add_assoc]
        rfl
      have bytesCons : bytes + bytesOf (((count, size, explicit) :: rest).take (more + 1)) =
          bytes + size + bytesOf (rest.take more) := by
        rw [List.take_succ_cons, bytesOf, List.map_cons, List.sum_cons, ← Nat.add_assoc]
        rfl
      refine ⟨more + 1, by rw [isTaken]; omega, .inr ?_⟩
      rw [unitsCons, bytesCons, List.take_succ_cons]
      rcases fits with rfl | fits
      · rw [List.take_zero]
        apply WindowFits.cons
        exact ⟨joins.1, joins.2, nofun⟩
      · exact fits.cons
    · exact ⟨0, rfl, .inl rfl⟩

theorem window_take_fits {requests : List (Nat × Nat × Option Nat)} (some_ : requests ≠ []) (cap byteBudget : Nat) :
    windowTakeCount requests cap byteBudget = 1 ∨
      WindowFits cap byteBudget (unitsOf (requests.take (windowTakeCount requests cap byteBudget)))
        (bytesOf (requests.take (windowTakeCount requests cap byteBudget)))
        (requests.take (windowTakeCount requests cap byteBudget)) := by
  cases requests with
  | nil => exact absurd rfl some_
  | cons request rest =>
    obtain ⟨count, size, explicit⟩ := request
    rw [windowTakeCount, windowTakeLoop]
    rw [if_pos (.inl rfl)]
    obtain ⟨more, isTaken, fits⟩ := window_take_loop_fits byteBudget rest (0 + 1) (0 + count) (0 + size)
      (admitCap cap explicit) (Nat.succ_ne_zero 0)
    rw [isTaken]
    rcases fits with rfl | fits
    · exact .inl rfl
    · apply Or.inr
      rw [Nat.zero_add] at fits
      rw [Nat.zero_add, Nat.add_comm 1 more, List.take_succ_cons, unitsOf, bytesOf, List.map_cons,
        List.map_cons, List.sum_cons, List.sum_cons]
      rw [Nat.zero_add] at fits
      exact fits.cons

theorem window_take_alone {count size own : Nat} {rest : List (Nat × Nat × Option Nat)} (positive : 0 < own)
    (large : own < count) (cap byteBudget : Nat) :
    windowTakeCount ((count, size, some own) :: rest) cap byteBudget = 1 := by
  rcases window_take_fits (List.cons_ne_nil (count, size, some own) rest) cap byteBudget with alone | fits
  · exact alone
  · have more := window_take_count_pos (List.cons_ne_nil (count, size, some own) rest) cap byteBudget
    obtain ⟨take, isTake⟩ := Nat.exists_eq_succ_of_ne_zero (Nat.pos_iff_ne_zero.mp more)
    rw [isTake, List.take_succ_cons] at fits
    have within := fits.underOwn _ List.mem_cons_self own rfl positive
    rw [unitsOf, List.map_cons, List.sum_cons] at within
    omega

variable {Input Slot : Type}

def estimate (size : Input → Nat) (inputs : List Input) : Nat := (inputs.map size).sum

section

variable (size : Input → Nat)

include size

theorem estimate_append (first last : List Input) :
    estimate size (first ++ last) = estimate size first + estimate size last := by
  rw [estimate, List.map_append, List.sum_append]
  rfl

theorem estimate_of_part {few many : List Input} (part : few <:+: many) :
    estimate size few ≤ estimate size many := by
  obtain ⟨before, after, rfl⟩ := part
  rw [estimate_append, estimate_append]
  omega

theorem estimate_take_mono (inputs : List Input) {few many : Nat} (ordered : few ≤ many) :
    estimate size (inputs.take few) ≤ estimate size (inputs.take many) := by
  rw [← Nat.min_eq_left ordered, ← List.take_take]
  exact estimate_of_part size (List.take_prefix _ _).isInfix

theorem sub_batch_loop_spec (byteBudget : Nat) (inputs : List Input) (bytes taken : Nat) :
    ∃ more ≤ inputs.length, subBatchLoop size byteBudget inputs bytes taken = taken + more ∧
      (1 < taken + more → more = 0 ∨ bytes + estimate size (inputs.take more) ≤ byteBudget) ∧
      (more < inputs.length → byteBudget < bytes + estimate size (inputs.take (more + 1))) := by
  induction inputs generalizing bytes taken with
  | nil => exact ⟨0, Nat.le_refl _, rfl, fun _ => .inl rfl, fun few => absurd few (Nat.lt_irrefl 0)⟩
  | cons input rest ih =>
    have estimateCons (count : Nat) : bytes + estimate size ((input :: rest).take (count + 1)) =
        bytes + size input + estimate size (rest.take count) := by
      rw [List.take_succ_cons, estimate, List.map_cons, List.sum_cons, ← Nat.add_assoc]
      rfl
    rw [subBatchLoop]
    split
    · rename_i stops
      refine ⟨0, Nat.zero_le _, rfl, fun _ => .inl rfl, fun _ => ?_⟩
      rw [estimateCons, List.take_zero]
      exact stops.2
    · rename_i goes
      obtain ⟨more, short, isTaken, inside, outside⟩ := ih (bytes + size input) (taken + 1)
      refine ⟨more + 1, Nat.succ_le_succ short, by rw [isTaken]; omega, ?_, ?_⟩
      · intro several
        rw [estimateCons]
        apply Or.inr
        rcases Nat.eq_zero_or_pos more with rfl | positive
        · rw [List.take_zero]
          change bytes + size input + 0 ≤ byteBudget
          omega
        · exact (inside (by omega)).resolve_left (by omega)
      · intro few
        rw [estimateCons]
        exact outside (Nat.lt_of_succ_lt_succ few)

theorem sub_batch_len_spec {inputs : List Input} (some_ : inputs ≠ []) {cap : Nat}
    (positive : 0 < cap) (byteBudget : Nat) :
    subBatchLen size inputs cap byteBudget ≤ cap ∧ subBatchLen size inputs cap byteBudget ≤ inputs.length ∧
    (1 < subBatchLen size inputs cap byteBudget →
      estimate size (inputs.take (subBatchLen size inputs cap byteBudget)) ≤ byteBudget) ∧
    (subBatchLen size inputs cap byteBudget < cap → subBatchLen size inputs cap byteBudget < inputs.length →
      byteBudget < estimate size (inputs.take (subBatchLen size inputs cap byteBudget + 1))) := by
  have capIs : max cap 1 = cap := Nat.max_eq_left positive
  have nonempty := List.length_pos_iff.mpr some_
  obtain ⟨more, short, isTaken, inside, outside⟩ := sub_batch_loop_spec size byteBudget (inputs.take cap) 0 0
  rw [List.length_take] at short outside
  have positiveMore : 0 < more := by
    rcases Nat.eq_zero_or_pos more with rfl | positive
    · -- The first input is taken whatever its size.
      obtain ⟨input, rest, isCons⟩ := List.exists_cons_of_ne_nil some_
      obtain ⟨below, isBelow⟩ := Nat.exists_eq_succ_of_ne_zero (Nat.pos_iff_ne_zero.mp ‹0 < cap›)
      have first := isTaken
      rw [isCons, isBelow, List.take_succ_cons, subBatchLoop, if_neg (fun stops => Nat.lt_irrefl 0 stops.1)] at first
      obtain ⟨_, _, more, -⟩ := sub_batch_loop_spec size byteBudget (rest.take below) (0 + size input) (0 + 1)
      omega
    · exact positive
  have isLen : subBatchLen size inputs cap byteBudget = more := by
    rw [subBatchLen, capIs, isTaken]
    omega
  rw [isLen]
  refine ⟨by omega, by omega, ?_, ?_⟩
  · intro several
    have fits := (inside (by omega)).resolve_left (by omega)
    rwa [List.take_take, Nat.min_eq_left (by omega), Nat.zero_add] at fits
  · intro underCap underLength
    have exceeds := outside (by omega)
    rwa [List.take_take, Nat.min_eq_left (by omega), Nat.zero_add] at exceeds

end

variable {ctx : DispatcherContext Input Slot}

/-- The requests whose inputs a call has. -/
def Work.requests : Work Input Slot → List (DispatchRequest Input)
  | .merged window => window
  | .fallback request _ _ _ => [request]
  | .single request => [request]
  | .split request _ _ _ => [request]

/-- The requests whose own caps bind a call: a request that goes alone is cut at the window's cap only. -/
def Work.bound : Work Input Slot → List (DispatchRequest Input)
  | .merged window => window
  | .fallback request _ _ _ => [request]
  | .single _ => []
  | .split _ _ _ _ => []

/-- What a call keeps to, unless it is for a single input. -/
structure Promised (ctx : DispatcherContext Input Slot) (cap : Nat) (requests : List (DispatchRequest Input))
    (inputs : List Input) : Prop where
  underCap : 1 < inputs.length → inputs.length ≤ cap
  underOwn : 1 < inputs.length → ∀ request ∈ requests, ∀ own, request.maxBatch = some own → 0 < own →
    inputs.length ≤ own
  inBudget : 1 < inputs.length → estimate ctx.estimateInputBytes inputs ≤ frameInputBytesBudget

def Status.Promised (ctx : DispatcherContext Input Slot) (cap : Nat) (status : Status Input Slot) : Prop :=
  ∀ work, status = .calling work → Dispatch.Promised ctx cap work.requests work.inputs

/-- The next of the inputs that wait would go beyond the request's own cap. -/
def Overfull (ctx : DispatcherContext Input Slot) (cap : Nat) (request : DispatchRequest Input)
    (waiting : List Input) : Prop :=
  ∃ own, request.maxBatch = some own ∧ 0 < own ∧ own < cap ∧ own < waiting.length ∧
    estimate ctx.estimateInputBytes (waiting.take (own + 1)) ≤ frameInputBytesBudget

theorem Promised.window {cap : Nat} {requests : List (DispatchRequest Input)} {inputs : List Input}
    (underCap : 1 < inputs.length → inputs.length ≤ cap)
    (inBudget : 1 < inputs.length → estimate ctx.estimateInputBytes inputs ≤ frameInputBytesBudget)
    (unbound : requests = []) : Promised ctx cap requests inputs :=
  ⟨underCap, fun _ _ member => absurd (unbound ▸ member) List.not_mem_nil, inBudget⟩

variable (cap : Nat)

theorem promised_finished (outcome : BatchOutcome) :
    (Status.finished outcome : Status Input Slot).Promised ctx cap := by
  rintro work same
  cases same

theorem promised_panicked : (Status.panicked : Status Input Slot).Promised ctx cap := by
  rintro work same
  cases same

variable {work : Work Input Slot}

theorem promised_calling {cap : Nat} :
    (Status.calling work).Promised ctx cap ↔ Dispatch.Promised ctx cap work.requests work.inputs := by
  constructor
  · exact fun promised => promised work rfl
  · rintro promised other same
    cases same
    exact promised

/-- A request's next part keeps to its own cap unless it would be too full. -/
theorem next_part_promised {cap : Nat} (positive : 0 < cap) (request : DispatchRequest Input) (outputs : List Slot)
    (waiting : List Input) :
    (ctx.nextPart cap request outputs waiting).status.Promised ctx cap ↔ ¬Overfull ctx cap request waiting := by
  rw [DispatcherContext.nextPart]
  split
  · rename_i done
    subst done
    refine iff_of_true (promised_finished cap .continue) ?_
    rintro ⟨own, -, -, -, short, -⟩
    exact Nat.not_lt_zero own short
  · rename_i some_
    obtain ⟨underCap, underLength, inside, outside⟩ :=
      sub_batch_len_spec ctx.estimateInputBytes some_ positive frameInputBytesBudget
    dsimp only
    rw [promised_calling]
    generalize isPart : subBatchLen ctx.estimateInputBytes waiting cap frameInputBytesBudget = part at *
    have length : (waiting.take part).length = part := by
      rw [List.length_take, Nat.min_eq_left underLength]
    constructor
    · rintro promised ⟨own, isOwn, ownPositive, ownCap, ownLength, ownFits⟩
      change Dispatch.Promised ctx cap [request] (waiting.take part) at promised
      have small : part ≤ own := by
        by_contra large
        have within := promised.underOwn (by omega) request (List.mem_singleton.mpr rfl) own isOwn ownPositive
        omega
      have exceeds := outside (by omega) (by omega)
      have more := estimate_take_mono ctx.estimateInputBytes waiting (show part + 1 ≤ own + 1 by omega)
      omega
    · intro keeps
      refine ⟨fun _ => ?_, fun _ => ?_, fun several => ?_⟩
      · change (waiting.take part).length ≤ cap
        omega
      · intro other member own isOwn ownPositive
        rw [List.mem_singleton.mp member] at isOwn
        change (waiting.take part).length ≤ own
        by_contra large
        have fits := estimate_take_mono ctx.estimateInputBytes waiting (show own + 1 ≤ part by omega)
        have total := inside (by omega)
        exact keeps ⟨own, isOwn, ownPositive, by omega, by omega, by omega⟩
      · change 1 < (waiting.take part).length at several
        exact inside (by omega)

/-- The estimate that came with a request is that of its inputs. -/
def DispatchRequest.Sized (ctx : DispatcherContext Input Slot) (request : DispatchRequest Input) : Prop :=
  request.payloadBytes = estimate ctx.estimateInputBytes request.inputs

variable {request : DispatchRequest Input}

theorem run_single_promised {cap : Nat} (positive : 0 < cap) (sized : request.Sized ctx) :
    (ctx.runSingle cap request).status.Promised ctx cap ↔ ¬Overfull ctx cap request request.inputs := by
  rw [DispatcherContext.runSingle]
  split
  · rename_i whole
    rw [sized] at whole
    dsimp only
    rw [promised_calling]
    change Dispatch.Promised ctx cap [request] request.inputs ↔ _
    constructor
    · rintro promised ⟨own, isOwn, ownPositive, ownCap, ownLength, -⟩
      have within := promised.underOwn (by omega) request (List.mem_singleton.mpr rfl) own isOwn ownPositive
      omega
    · intro keeps
      refine ⟨fun _ => whole.1, fun _ other member own isOwn ownPositive => ?_, fun _ => whole.2⟩
      rw [List.mem_singleton.mp member] at isOwn
      by_contra large
      have part := estimate_take_mono ctx.estimateInputBytes request.inputs
        (show own + 1 ≤ request.inputs.length by omega)
      rw [List.take_length] at part
      exact keeps ⟨own, isOwn, ownPositive, by omega, by omega, by omega⟩
  · exact next_part_promised positive request [] request.inputs

theorem estimate_flat_map {requests : List (DispatchRequest Input)} (sized : ∀ request ∈ requests, request.Sized ctx) :
    estimate ctx.estimateInputBytes (requests.flatMap DispatchRequest.inputs) =
      (requests.map DispatchRequest.payloadBytes).sum := by
  induction requests with
  | nil => rfl
  | cons request rest ih =>
    have later := ih fun other member => sized other (List.mem_cons_of_mem _ member)
    rw [List.flatMap_cons, estimate, List.map_append, List.sum_append, List.map_cons, List.sum_cons, ← later,
      sized request List.mem_cons_self]
    rfl

/-- What a request is when a window is formed. -/
def DispatchRequest.figures (request : DispatchRequest Input) : Nat × Nat × Option Nat :=
  (request.inputs.length, request.payloadBytes, request.maxBatch)

theorem units_of_figures (requests : List (DispatchRequest Input)) :
    unitsOf (requests.map DispatchRequest.figures) = (requests.flatMap DispatchRequest.inputs).length := by
  rw [unitsOf, List.map_map, List.length_flatMap]
  rfl

theorem bytes_of_figures (requests : List (DispatchRequest Input)) :
    bytesOf (requests.map DispatchRequest.figures) = (requests.map DispatchRequest.payloadBytes).sum := by
  rw [bytesOf, List.map_map]
  rfl

variable {window : List (DispatchRequest Input)}

theorem WindowFits.promised {cap : Nat} (sized : ∀ request ∈ window, request.Sized ctx)
    (fits : WindowFits cap frameInputBytesBudget (unitsOf (window.map DispatchRequest.figures))
      (bytesOf (window.map DispatchRequest.figures)) (window.map DispatchRequest.figures)) :
    Promised ctx cap window (window.flatMap DispatchRequest.inputs) := by
  obtain ⟨underCap, inBudget, underOwn⟩ := fits
  rw [units_of_figures] at underCap underOwn
  rw [bytes_of_figures, ← estimate_flat_map sized] at inBudget
  exact ⟨fun _ => underCap,
    fun _ request member own isOwn => underOwn request.figures (List.mem_map_of_mem member) own isOwn,
    fun _ => inBudget⟩

theorem WindowFits.each {cap : Nat} (sized : ∀ request ∈ window, request.Sized ctx)
    (fits : WindowFits cap frameInputBytesBudget (unitsOf (window.map DispatchRequest.figures))
      (bytesOf (window.map DispatchRequest.figures)) (window.map DispatchRequest.figures)) (member : request ∈ window) :
    Promised ctx cap [request] request.inputs := by
  have part : request.inputs <:+: window.flatMap DispatchRequest.inputs := by
    obtain ⟨before, after, rfl⟩ := List.append_of_mem member
    rw [List.flatMap_append, List.flatMap_cons, ← List.append_assoc]
    exact ⟨_, _, rfl⟩
  have short := part.length_le
  obtain ⟨underCap, inBudget, underOwn⟩ := fits
  rw [units_of_figures] at underCap underOwn
  rw [bytes_of_figures, ← estimate_flat_map sized] at inBudget
  refine ⟨fun _ => Nat.le_trans short underCap, fun _ other alone own isOwn positive => ?_,
    fun _ => Nat.le_trans (estimate_of_part _ part) inBudget⟩
  rw [List.mem_singleton.mp alone] at isOwn
  exact Nat.le_trans short (underOwn request.figures (List.mem_map_of_mem member) own isOwn positive)

/-- The requests of a batch that are sent alone should the batch fail. -/
def Work.retried : Work Input Slot → List (DispatchRequest Input)
  | .merged window => window
  | .fallback _ _ remaining _ => remaining.map Prod.fst
  | .single _ => []
  | .split _ _ _ _ => []

/-- A call keeps to the caps that bind it, and so does each request of a batch, should the batch fail. -/
structure Work.Whole (ctx : DispatcherContext Input Slot) (cap : Nat) (work : Work Input Slot) : Prop where
  call : Promised ctx cap work.bound work.inputs
  retries : ∀ request ∈ work.retried, Promised ctx cap [request] request.inputs

def Status.Whole (ctx : DispatcherContext Input Slot) (cap : Nat) (status : Status Input Slot) : Prop :=
  ∀ work, status = .calling work → work.Whole ctx cap

theorem whole_calling {cap : Nat} : (Status.calling work).Whole ctx cap ↔ work.Whole ctx cap := by
  constructor
  · exact fun whole => whole work rfl
  · rintro whole other same
    cases same
    exact whole

theorem whole_finished (outcome : BatchOutcome) : (Status.finished outcome : Status Input Slot).Whole ctx cap := by
  rintro work same
  cases same

theorem whole_panicked : (Status.panicked : Status Input Slot).Whole ctx cap := by
  rintro work same
  cases same

theorem next_part_whole {cap : Nat} (positive : 0 < cap) (request : DispatchRequest Input) (outputs : List Slot)
    (waiting : List Input) : (ctx.nextPart cap request outputs waiting).status.Whole ctx cap := by
  rw [DispatcherContext.nextPart]
  split
  · exact whole_finished cap _
  · rename_i some_
    obtain ⟨underCap, underLength, inside, -⟩ :=
      sub_batch_len_spec ctx.estimateInputBytes some_ positive frameInputBytesBudget
    dsimp only
    rw [whole_calling]
    generalize subBatchLen ctx.estimateInputBytes waiting cap frameInputBytesBudget = part at *
    have length : (waiting.take part).length = part := by
      rw [List.length_take, Nat.min_eq_left underLength]
    refine ⟨.window (fun _ => ?_) (fun several => ?_) rfl, nofun⟩
    · change (waiting.take part).length ≤ cap
      omega
    · change 1 < (waiting.take part).length at several
      exact inside (by omega)

theorem run_single_whole {cap : Nat} (positive : 0 < cap)
    (sized : request.Sized ctx) : (ctx.runSingle cap request).status.Whole ctx cap := by
  rw [DispatcherContext.runSingle]
  split
  · rename_i whole
    rw [sized] at whole
    exact whole_calling.mpr ⟨.window (fun _ => whole.1) (fun _ => whole.2) rfl,
      nofun⟩
  · exact next_part_whole positive request [] request.inputs

theorem next_fallback_promised {cap : Nat} {remaining : List (DispatchRequest Input × Nat)}
    (whole : ∀ pair ∈ remaining, Promised ctx cap [pair.1] pair.1.inputs)
    (counts : ∀ pair ∈ remaining, pair.2 = pair.1.inputs.length) :
    let next : Progress Input Slot := DispatcherContext.nextFallback remaining
      ((remaining.map Prod.fst).flatMap DispatchRequest.inputs)
    next.status.Promised ctx cap ∧ next.status.Whole ctx cap := by
  cases remaining with
  | nil => exact ⟨promised_finished cap _, whole_finished cap _⟩
  | cons first rest =>
    obtain ⟨request, count⟩ := first
    have isCount : count = request.inputs.length := counts (request, count) List.mem_cons_self
    subst isCount
    dsimp only
    rw [DispatcherContext.nextFallback]
    split
    · dsimp only
      rw [promised_calling, whole_calling, List.map_cons, List.flatMap_cons, List.take_left]
      refine ⟨whole _ List.mem_cons_self, whole _ List.mem_cons_self, ?_⟩
      intro other member
      obtain ⟨pair, isPair, rfl⟩ := List.mem_map.mp member
      exact whole pair (List.mem_cons_of_mem _ isPair)
    · exact ⟨promised_panicked cap, whole_panicked cap⟩

/-- A window of one request is the request alone, and any other is merged. -/
theorem run_batch_promised {cap : Nat} (sized : ∀ request ∈ window, request.Sized ctx)
    (several : window.length ≠ 1 →
      WindowFits cap frameInputBytesBudget (unitsOf (window.map DispatchRequest.figures))
        (bytesOf (window.map DispatchRequest.figures)) (window.map DispatchRequest.figures))
    (positive : 0 < cap) :
    ((ctx.runBatch cap window).status.Promised ctx cap ↔
      ∀ request, window = [request] → ¬Overfull ctx cap request request.inputs) ∧
    (ctx.runBatch cap window).status.Whole ctx cap := by
  by_cases alone : window.length = 1
  · obtain ⟨request, rfl⟩ := List.length_eq_one_iff.mp alone
    refine ⟨?_, run_single_whole positive (sized request List.mem_cons_self)⟩
    change (ctx.runSingle cap request).status.Promised ctx cap ↔ _
    rw [run_single_promised positive (sized request List.mem_cons_self)]
    constructor
    · intro keeps other same
      cases same
      exact keeps
    · exact fun keeps => keeps request rfl
  · have merged : ctx.runBatch cap window = ⟨.calling (.merged window), []⟩ := by
      rcases window with _ | ⟨first, _ | ⟨second, rest⟩⟩
      · rfl
      · exact absurd rfl alone
      · rfl
    have fits := several alone
    rw [merged]
    dsimp only
    rw [promised_calling, whole_calling]
    refine ⟨iff_of_true (fits.promised sized) ?_, fits.promised sized, fun request member => fits.each sized member⟩
    rintro request rfl
    exact absurd rfl alone

theorem resume_promised {cap : Nat} (positive : 0 < cap) (outcome : CallOutcome)
    (fits : work.Fits ctx) (whole : work.Whole ctx cap) :
    ((ctx.resume cap work outcome).status.Promised ctx cap ↔
      ∀ request outputs chunk rest, work = .split request outputs chunk rest → outcome = .slots →
        ¬Overfull ctx cap request rest) ∧
    (ctx.resume cap work outcome).status.Whole ctx cap := by
  cases work with
  | merged window =>
    have kept : (ctx.resume cap (.merged window) outcome).status.Promised ctx cap ∧
        (ctx.resume cap (.merged window) outcome).status.Whole ctx cap := by
      cases outcome with
      | slots =>
        rw [DispatcherContext.resume, DispatcherContext.resumeMerged]
        split
        · exact ⟨promised_finished cap _, whole_finished cap _⟩
        · exact ⟨promised_panicked cap, whole_panicked cap⟩
      | workerError why =>
        have firsts : (window.map fun request => (request, request.inputs.length)).map Prod.fst = window := by
          rw [List.map_map]
          exact List.map_id window
        have next := @next_fallback_promised Input Slot ctx cap
          (window.map fun request => (request, request.inputs.length))
          (fun pair member => by
            obtain ⟨request, isMember, rfl⟩ := List.mem_map.mp member
            exact whole.retries request isMember)
          (fun pair member => by
            obtain ⟨request, -, rfl⟩ := List.mem_map.mp member
            rfl)
        rwa [firsts] at next
      | fatal why => exact ⟨promised_finished cap _, whole_finished cap _⟩
    refine ⟨iff_of_true kept.1 ?_, kept.2⟩
    intro request outputs chunk rest same
    cases same
  | fallback request inputs remaining combined =>
    obtain ⟨rfl, rfl, counts⟩ := fits
    have next := @next_fallback_promised Input Slot ctx cap remaining
      (fun pair member => whole.retries pair.1 (List.mem_map_of_mem member)) counts
    have kept : (ctx.resume cap (.fallback request request.inputs remaining
          ((remaining.map Prod.fst).flatMap DispatchRequest.inputs)) outcome).status.Promised ctx cap ∧
        (ctx.resume cap (.fallback request request.inputs remaining
          ((remaining.map Prod.fst).flatMap DispatchRequest.inputs)) outcome).status.Whole ctx cap := by
      cases outcome with
      | slots | workerError => exact next
      | fatal => exact ⟨promised_finished cap _, whole_finished cap _⟩
    refine ⟨iff_of_true kept.1 ?_, kept.2⟩
    intro other outputs chunk rest same
    cases same
  | single request =>
    have kept : (ctx.resume cap (.single request) outcome).status.Promised ctx cap ∧
        (ctx.resume cap (.single request) outcome).status.Whole ctx cap := by
      cases outcome <;> exact ⟨promised_finished cap _, whole_finished cap _⟩
    refine ⟨iff_of_true kept.1 ?_, kept.2⟩
    intro other outputs chunk rest same
    cases same
  | split request outputs chunk rest =>
    cases outcome with
    | slots =>
      change ((ctx.nextPart cap request _ rest).status.Promised ctx cap ↔ _) ∧ _
      rw [next_part_promised positive]
      refine ⟨⟨?_, fun keeps => keeps request outputs chunk rest rfl rfl⟩, next_part_whole positive request _ rest⟩
      intro keeps other before part later same _
      cases same
      exact keeps
    | workerError | fatal =>
      refine ⟨iff_of_true (promised_finished cap _) ?_, whole_finished cap _⟩
      intro _ _ _ _ _ absurdity
      cases absurdity

/-- The cap a queue's next window is formed under. -/
def queueCap (ctx : DispatcherContext Input Slot) (queue : List (DispatchRequest Input)) : Nat :=
  effectiveCap (queue.map DispatchRequest.maxBatch) ctx.registryDefaultBatch ctx.serverDefaultBatch

/-- The number of requests a queue's next window takes. -/
def queueTake (ctx : DispatcherContext Input Slot) (queue : List (DispatchRequest Input)) : Nat :=
  windowTakeCount (queue.map DispatchRequest.figures) (queueCap ctx queue) frameInputBytesBudget

theorem queue_cap_pos (queue : List (DispatchRequest Input)) : 0 < queueCap ctx queue := Nat.le_max_right _ _

/-- The windows for as many free replicas have no request that goes alone and is too full. -/
def QueueKeeps (ctx : DispatcherContext Input Slot) : Nat → List (DispatchRequest Input) → Prop
  | 0, _ => True
  | _ + 1, [] => True
  | free + 1, request :: rest =>
      ¬Overfull ctx (queueCap ctx (request :: rest)) request request.inputs ∧
        QueueKeeps ctx free ((request :: rest).drop (queueTake ctx (request :: rest)))

/-- What is in the mailbox joins the queue, unless a shutdown is there. -/
def MailKeeps (ctx : DispatcherContext Input Slot) (free : Nat) :
    List (DispatchRequest Input) → List (DispatchMsg Input) → Prop
  | queue, [] => QueueKeeps ctx free queue
  | queue, .predict request :: rest => MailKeeps ctx free (queue ++ [request]) rest
  | _, .shutdown :: _ => True

/-- Every window in flight rests at a call that keeps to its caps. -/
def WindowsPromised (ctx : DispatcherContext Input Slot) (inFlight : List (InFlight Input Slot)) : Prop :=
  ∀ window ∈ inFlight, window.status.Promised ctx window.cap

theorem windows_promised_append {first last : List (InFlight Input Slot)} :
    WindowsPromised ctx (first ++ last) ↔ WindowsPromised ctx first ∧ WindowsPromised ctx last :=
  List.forall_mem_append

theorem windows_promised_singleton {window : InFlight Input Slot} :
    WindowsPromised ctx [window] ↔ window.status.Promised ctx window.cap := List.forall_mem_singleton

/-- The estimate that a caller gives is that of the inputs. -/
def DispatchEvent.Sized (ctx : DispatcherContext Input Slot) : DispatchEvent Input → Prop
  | .send inputs _ payloadBytes => payloadBytes = estimate ctx.estimateInputBytes inputs
  | _ => True

namespace Dispatcher

variable {state : Dispatcher Input Slot}

/-- What the requests and the windows are like in every state. -/
structure Kept (ctx : DispatcherContext Input Slot) (state : Dispatcher Input Slot) : Prop where
  queued : ∀ request ∈ state.queue, request.Sized ctx
  mailed : ∀ request ∈ requestsOf state.mailbox, request.Sized ctx
  windows : ∀ window ∈ state.inFlight, 0 < window.cap ∧ window.status.Whole ctx window.cap

theorem start_window_promised {rest : List (DispatchRequest Input)}
    (isQueue : state.queue = request :: rest) (kept : state.Kept ctx) (replica : Nat) :
    (WindowsPromised ctx (state.startWindow ctx replica).inFlight ↔
      WindowsPromised ctx state.inFlight ∧ ¬Overfull ctx (queueCap ctx state.queue) request request.inputs) ∧
    (state.startWindow ctx replica).Kept ctx := by
  have isStart : state.startWindow ctx replica =
      { state with
        queue := state.queue.drop (queueTake ctx state.queue)
        inFlight := state.inFlight ++ [⟨replica, queueCap ctx state.queue,
          (ctx.runBatch (queueCap ctx state.queue) (state.queue.take (queueTake ctx state.queue))).status⟩]
        windows := state.windows ++ [state.queue.take (queueTake ctx state.queue)]
        replies := state.replies ++
          (ctx.runBatch (queueCap ctx state.queue) (state.queue.take (queueTake ctx state.queue))).replies } := rfl
  have sized : ∀ other ∈ state.queue.take (queueTake ctx state.queue), other.Sized ctx := fun other member =>
    kept.queued other (List.mem_of_mem_take member)
  have some_ : state.queue.map DispatchRequest.figures ≠ [] := by
    rw [isQueue]
    exact List.cons_ne_nil _ _
  have positiveTake : 0 < queueTake ctx state.queue := window_take_count_pos some_ _ _
  have positive : 0 < queueCap ctx state.queue := queue_cap_pos state.queue
  have fits := window_take_fits some_ (queueCap ctx state.queue) frameInputBytesBudget
  rw [← queueTake, ← List.map_take] at fits
  have batch := run_batch_promised sized
    (fun several => fits.resolve_left fun one => several (by rw [one, isQueue]; rfl)) positive
  rw [isStart]
  constructor
  · dsimp only
    rw [windows_promised_append, windows_promised_singleton]
    apply and_congr_right
    intro _
    rw [batch.1]
    constructor
    · rintro keeps ⟨own, isOwn, ownPositive, ownCap, ownLength, ownFits⟩
      -- It has more units than its own cap, and so it goes alone.
      have alone : queueTake ctx state.queue = 1 := by
        rw [queueTake, isQueue, List.map_cons, DispatchRequest.figures, isOwn]
        exact window_take_alone ownPositive ownLength _ _
      refine keeps request ?_ ⟨own, isOwn, ownPositive, ownCap, ownLength, ownFits⟩
      rw [alone, isQueue]
      rfl
    · intro keeps other isAlone
      have isFirst : request = other := by
        obtain ⟨take, isTake⟩ := Nat.exists_eq_succ_of_ne_zero (Nat.pos_iff_ne_zero.mp positiveTake)
        rw [isTake, isQueue, List.take_succ_cons] at isAlone
        exact (List.cons.inj isAlone).1
      rw [← isFirst]
      exact keeps
  · refine ⟨fun other member => kept.queued other (List.mem_of_mem_drop member), kept.mailed, ?_⟩
    intro window member
    rcases List.mem_append.mp member with old | new
    · exact kept.windows window old
    · rw [List.mem_singleton.mp new]
      exact ⟨positive, batch.2⟩

theorem dispatch_promised (kept : state.Kept ctx) (free : List Nat) :
    (WindowsPromised ctx (dispatch ctx free state).inFlight ↔
      WindowsPromised ctx state.inFlight ∧ QueueKeeps ctx free.length state.queue) ∧
    (dispatch ctx free state).Kept ctx := by
  induction free generalizing state with
  | nil => exact ⟨(and_iff_left trivial).symm, kept.queued, kept.mailed, kept.windows⟩
  | cons replica others ih =>
    rw [dispatch]
    split
    · rename_i empty
      refine ⟨?_, kept.queued, kept.mailed, kept.windows⟩
      rw [empty]
      exact (and_iff_left trivial).symm
    · rename_i some_
      obtain ⟨request, rest, isQueue⟩ := List.exists_cons_of_ne_nil some_
      obtain ⟨starts, keptStart⟩ := start_window_promised isQueue kept replica
      obtain ⟨goes, keptAll⟩ := ih keptStart
      refine ⟨?_, keptAll⟩
      rw [goes, starts, List.length_cons, isQueue, QueueKeeps, and_assoc]
      change _ ∧ _ ∧ QueueKeeps ctx others.length (state.queue.drop (queueTake ctx state.queue)) ↔ _
      rw [isQueue]

theorem Kept.enqueue (kept : state.Kept ctx) (sized : request.Sized ctx) :
    ({ state with queue := state.queue ++ [request] } : Dispatcher Input Slot).Kept ctx := by
  refine ⟨fun other member => ?_, kept.mailed, kept.windows⟩
  rcases List.mem_append.mp member with old | new
  · exact kept.queued other old
  · rw [List.mem_singleton.mp new]
    exact sized

theorem drain_mailbox_promised (mailbox : List (DispatchMsg Input)) (kept : state.Kept ctx)
    (mailed : ∀ request ∈ requestsOf mailbox, request.Sized ctx) :
    (WindowsPromised ctx (drainMailbox ctx mailbox state).inFlight ↔
      WindowsPromised ctx state.inFlight ∧ MailKeeps ctx state.free.length state.queue mailbox) ∧
    (drainMailbox ctx mailbox state).Kept ctx := by
  induction mailbox generalizing state with
  | nil =>
    rw [drainMailbox, MailKeeps]
    have keptEmpty : ({ state with mailbox := [] } : Dispatcher Input Slot).Kept ctx :=
      ⟨kept.queued, nofun, kept.windows⟩
    exact dispatch_promised keptEmpty state.free
  | cons message rest ih =>
    cases message with
    | predict request =>
      rw [requests_of_predict] at mailed
      rw [drainMailbox, MailKeeps]
      exact ih (kept.enqueue (mailed request List.mem_cons_self)) fun other member => mailed other
        (List.mem_cons_of_mem _ member)
    | shutdown =>
      rw [drainMailbox, MailKeeps]
      exact ⟨(and_iff_left trivial).symm, nofun,
        nofun, kept.windows⟩

theorem Kept.end_with (kept : state.Kept ctx) (phase : Phase) (why : String) :
    ({ state.failQueue why with phase } : Dispatcher Input Slot).Kept ctx :=
  ⟨nofun, nofun, kept.windows⟩

theorem Kept.remove_window (kept : state.Kept ctx) (index : Nat) : (state.removeWindow index).Kept ctx :=
  ⟨kept.queued, kept.mailed, fun window member => kept.windows window (List.mem_of_mem_eraseIdx member)⟩

theorem windows_promised_erase {inFlight : List (InFlight Input Slot)} {index : Nat} {window : InFlight Input Slot}
    (found : inFlight[index]? = some window) (promised : window.status.Promised ctx window.cap) :
    WindowsPromised ctx (inFlight.eraseIdx index) ↔ WindowsPromised ctx inFlight := by
  obtain ⟨before, after, isSplit, erased, -⟩ := windows_split found
  rw [erased, isSplit, windows_promised_append, windows_promised_append, windows_promised_append,
    windows_promised_singleton]
  tauto

/-- The condition on an event in the state it meets. -/
def EventKeeps (ctx : DispatcherContext Input Slot) (state : Dispatcher Input Slot) : DispatchEvent Input → Prop
  | .receive =>
      match state.phase, state.mailbox with
      | .serving, .predict request :: rest =>
          MailKeeps ctx state.free.length (state.queue ++ [request]) rest
      | _, _ => True
  | .join index =>
      match state.phase, state.inFlight[index]? with
      | .serving, some ⟨_, _, .finished .continue⟩ =>
          MailKeeps ctx (state.free.length + 1) state.queue state.mailbox
      | _, _ => True
  | .returns index .slots =>
      match state.inFlight[index]? with
      | some ⟨_, cap, .calling (.split request _ _ rest)⟩ => ¬Overfull ctx cap request rest
      | _ => True
  | _ => True

theorem receive_promised (kept : state.Kept ctx) (serving : state.phase = .serving) :
    (WindowsPromised ctx (state.receive ctx).inFlight ↔
      WindowsPromised ctx state.inFlight ∧ state.EventKeeps ctx .receive) ∧
    (state.receive ctx).Kept ctx := by
  rw [EventKeeps, serving]
  rcases isMailbox : state.mailbox with _ | ⟨message, rest⟩
  · rw [Dispatcher.receive, isMailbox]
    dsimp only
    split
    · exact ⟨(and_iff_left trivial).symm, kept.end_with .draining "model was unloaded"⟩
    · exact ⟨(and_iff_left trivial).symm, kept⟩
  · cases message with
    | shutdown =>
      rw [Dispatcher.receive, isMailbox]
      exact ⟨(and_iff_left trivial).symm, nofun,
        nofun, kept.windows⟩
    | predict request =>
      have mailed := kept.mailed
      rw [isMailbox, requests_of_predict] at mailed
      rw [Dispatcher.receive, isMailbox]
      have keptMore : ({ state with mailbox := .predict request :: rest, queue := state.queue ++ [request] } :
          Dispatcher Input Slot).Kept ctx := by
        rw [← isMailbox]
        exact kept.enqueue (mailed request List.mem_cons_self)
      exact drain_mailbox_promised rest keptMore fun other member => mailed other (List.mem_cons_of_mem _ member)

theorem join_promised (kept : state.Kept ctx) (index : Nat) :
    (WindowsPromised ctx (state.join ctx index).inFlight ↔
      WindowsPromised ctx state.inFlight ∧ state.EventKeeps ctx (.join index)) ∧
    (state.join ctx index).Kept ctx := by
  rw [Dispatcher.join, EventKeeps]
  rcases found : state.inFlight[index]? with _ | ⟨replica, cap, status⟩
  · cases state.phase <;> exact ⟨(and_iff_left trivial).symm, kept⟩
  · cases status with
    | calling work =>
      cases isPhase : state.phase <;> exact ⟨(and_iff_left trivial).symm, kept⟩
    | panicked =>
      have erase := @windows_promised_erase _ _ ctx _ _ _ found (promised_panicked cap)
      have keptLess := kept.remove_window index
      cases isPhase : state.phase with
      | serving => exact ⟨erase.trans (and_iff_left trivial).symm, keptLess.end_with .aborting _⟩
      | draining => exact ⟨erase.trans (and_iff_left trivial).symm, keptLess⟩
      | dying | aborting => exact ⟨(and_iff_left trivial).symm, kept⟩
    | finished outcome =>
      have erase := @windows_promised_erase _ _ ctx _ _ _ found (promised_finished cap outcome)
      have keptLess := kept.remove_window index
      cases isPhase : state.phase with
      | serving =>
        cases outcome with
        | «continue» =>
          have keptFree : ({ state.removeWindow index with free := replica :: state.free } :
              Dispatcher Input Slot).Kept ctx := ⟨keptLess.queued, keptLess.mailed, keptLess.windows⟩
          have drained := drain_mailbox_promised state.mailbox keptFree kept.mailed
          exact ⟨drained.1.trans (and_congr_left fun _ => erase), drained.2⟩
        | fatal why =>
          exact ⟨erase.trans (and_iff_left trivial).symm, keptLess.queued, keptLess.mailed, keptLess.windows⟩
      | draining =>
        cases outcome with
        | «continue» =>
          exact ⟨erase.trans (and_iff_left trivial).symm, keptLess.queued, keptLess.mailed, keptLess.windows⟩
        | fatal why => exact ⟨erase.trans (and_iff_left trivial).symm, keptLess⟩
      | dying | aborting => exact ⟨(and_iff_left trivial).symm, kept⟩

theorem returns_promised (accounted : state.Accounted ctx) (kept : state.Kept ctx)
    (index : Nat) (outcome : CallOutcome) : (WindowsPromised ctx state.inFlight →
      (WindowsPromised ctx (state.returns ctx index outcome).inFlight ↔ state.EventKeeps ctx (.returns index outcome))) ∧
    (state.returns ctx index outcome).Kept ctx := by
  rw [Dispatcher.returns]
  rcases found : state.inFlight[index]? with _ | ⟨replica, cap, status⟩
  · refine ⟨fun promised => iff_of_true promised ?_, kept⟩
    cases outcome <;> simp only [EventKeeps, found]
  · have member : ⟨replica, cap, status⟩ ∈ state.inFlight := List.mem_of_getElem? found
    cases status with
    | finished | panicked =>
      refine ⟨fun promised => iff_of_true promised ?_, kept⟩
      cases outcome <;> simp only [EventKeeps, found]
    | calling work =>
      obtain ⟨positive, whole⟩ := kept.windows _ member
      have fits : work.Fits ctx := (accounted.windows _ member).1
      obtain ⟨goes, wholeNext⟩ := resume_promised positive outcome fits (whole_calling.mp whole)
      obtain ⟨before, after, isSplit, -, isSet⟩ := windows_split found
      dsimp only
      rw [isSet]
      constructor
      · intro promised
        rw [windows_promised_append, windows_promised_append, windows_promised_singleton]
        dsimp only
        rw [goes]
        rw [isSplit, windows_promised_append, windows_promised_append] at promised
        rw [and_iff_left promised.2, and_iff_right promised.1.1]
        cases outcome with
        | slots =>
          rw [EventKeeps, found]
          cases work with
          | split request outputs chunk rest =>
            constructor
            · exact fun keeps => keeps request outputs chunk rest rfl rfl
            · rintro keeps other part piece later same _
              cases same
              exact keeps
          | merged | fallback | single =>
            refine iff_of_true ?_ trivial
            rintro other part piece later same
            cases same
        | workerError | fatal =>
          refine iff_of_true ?_ trivial
          rintro other part piece later _ same
          cases same
      · refine ⟨kept.queued, kept.mailed, ?_⟩
        have old := kept.windows
        rw [isSplit] at old
        intro window isWindow
        rcases List.mem_append.mp isWindow with isFront | isBehind
        · rcases List.mem_append.mp isFront with isBefore | isNew
          · exact old window (List.mem_append_left _ (List.mem_append_left _ isBefore))
          · rw [List.mem_singleton.mp isNew]
            exact ⟨positive, wholeNext⟩
        · exact old window (List.mem_append_right _ isBehind)

theorem step_promised (accounted : state.Accounted ctx) (kept : state.Kept ctx)
    (event : DispatchEvent Input) (sized : event.Sized ctx) : (WindowsPromised ctx state.inFlight →
      (WindowsPromised ctx (state.step ctx event).inFlight ↔ state.EventKeeps ctx event)) ∧
    (state.step ctx event).Kept ctx := by
  cases event with
  | send inputs maxBatch payloadBytes =>
    rw [step]
    split
    · exact ⟨fun promised => iff_of_true promised trivial, kept⟩
    · rw [Dispatcher.send]
      dsimp only
      split
      · exact ⟨fun promised => iff_of_true promised trivial, kept.queued, kept.mailed, kept.windows⟩
      · refine ⟨fun promised => iff_of_true promised trivial, kept.queued, ?_, kept.windows⟩
        intro request member
        rw [requests_of_append] at member
        rcases List.mem_append.mp member with old | new
        · exact kept.mailed request old
        · rw [List.mem_singleton.mp new]
          exact sized
  | sendShutdown =>
    rw [step]
    split
    · exact ⟨fun promised => iff_of_true promised trivial, kept⟩
    · refine ⟨fun promised => iff_of_true promised trivial, kept.queued, ?_, kept.windows⟩
      rw [requests_of_append]
      exact fun request member => kept.mailed request ((List.mem_append.mp member).resolve_right List.not_mem_nil)
  | hangUp => exact ⟨fun promised => iff_of_true promised trivial, kept.queued, kept.mailed, kept.windows⟩
  | receive =>
    rw [step]
    cases isPhase : state.phase with
    | serving =>
      obtain ⟨goes, keptNext⟩ := receive_promised kept isPhase
      exact ⟨fun promised => goes.trans (and_iff_right promised), keptNext⟩
    | dying | draining | aborting =>
      refine ⟨fun promised => iff_of_true promised ?_, kept⟩
      rw [EventKeeps, isPhase]
      trivial
  | join index =>
    obtain ⟨goes, keptNext⟩ := join_promised kept index
    exact ⟨fun promised => goes.trans (and_iff_right promised), keptNext⟩
  | returns index outcome => exact returns_promised accounted kept index outcome
  | reaped =>
    rw [step]
    cases isPhase : state.phase with
    | dying why => exact ⟨fun promised => iff_of_true promised trivial, kept.end_with .aborting why⟩
    | serving | draining | aborting => exact ⟨fun promised => iff_of_true promised trivial, kept⟩
  | graceExpires =>
    rw [step]
    cases isPhase : state.phase with
    | draining =>
      dsimp only
      split
      · exact ⟨fun promised => iff_of_true promised trivial, kept⟩
      · exact ⟨fun promised => iff_of_true promised trivial, kept.queued, kept.mailed, kept.windows⟩
    | serving | dying | aborting => exact ⟨fun promised => iff_of_true promised trivial, kept⟩
  | aborted index =>
    rw [step]
    cases isPhase : state.phase with
    | aborting =>
      dsimp only
      rw [abortWindow]
      split
      · exact ⟨fun promised => iff_of_true promised trivial, kept⟩
      · have keptLess := kept.remove_window index
        refine ⟨fun promised => iff_of_true ?_ trivial, keptLess.queued, keptLess.mailed, keptLess.windows⟩
        exact fun window member => promised window (List.mem_of_mem_eraseIdx member)
    | serving | dying | draining => exact ⟨fun promised => iff_of_true promised trivial, kept⟩

theorem kept_init (replicas : Nat) : (dispatcherMachine ctx replicas).init.Kept ctx :=
  ⟨nofun, nofun,
    nofun⟩

end Dispatcher

/-- Every call of a run keeps to the window's cap and the byte budget, and to the caps of the requests it merges;
the calls keep to the caps of all their requests exactly when no request that goes alone is cut beyond its own cap. -/
theorem calls_promised_iff (ctx : DispatcherContext Input Slot) (replicas : Nat)
    (events : List (DispatchEvent Input)) (sized : ∀ event ∈ events, event.Sized ctx) :
    (∀ before, before <+: events → ∀ window ∈ ((dispatcherMachine ctx replicas).run before).inFlight,
      ∀ work, window.status = .calling work → Promised ctx window.cap work.bound work.inputs) ∧
    ((∀ before, before <+: events → WindowsPromised ctx ((dispatcherMachine ctx replicas).run before).inFlight) ↔
      (dispatcherMachine ctx replicas).AdmittedRun (Dispatcher.EventKeeps ctx) events) := by
  have start : Dispatcher.Accounted ctx (dispatcherMachine ctx replicas).init ∧
      (dispatcherMachine ctx replicas).init.Kept ctx :=
    ⟨Dispatcher.accounted_init replicas, Dispatcher.kept_init replicas⟩
  constructor
  · intro before isPrefix window isWindow work calling
    have allowed : ∀ event ∈ before, event.Sized ctx := fun event member => sized event (isPrefix.subset member)
    have reached := (dispatcherMachine ctx replicas).run_invariant (fun state => state.Accounted ctx ∧ state.Kept ctx)
      (fun _ event => event.Sized ctx) start
      (fun state event isSized holds => ⟨holds.1.step event, (Dispatcher.step_promised holds.1 holds.2 event isSized).2⟩)
      before (Machine.admitted_run_of_forall _ allowed)
    exact ((reached.2.windows window isWindow).2 work calling).call
  · apply (dispatcherMachine ctx replicas).prefixes_good_iff_among (DispatchEvent.Sized ctx)
      (fun state => (state.Accounted ctx ∧ state.Kept ctx) ∧ WindowsPromised ctx state.inFlight)
      (fun state => WindowsPromised ctx state.inFlight)
    · exact ⟨start, nofun⟩
    · exact fun state holds => holds.2
    · rintro state event isSized keeps ⟨⟨accounted, kept⟩, promised⟩
      obtain ⟨goes, keptNext⟩ := Dispatcher.step_promised accounted kept event isSized
      exact ⟨⟨accounted.step event, keptNext⟩, (goes promised).mpr keeps⟩
    · rintro state event isSized breaks ⟨⟨accounted, kept⟩, promised⟩ promisedNext
      exact breaks (((Dispatcher.step_promised accounted kept event isSized).1 promised).mp promisedNext)
    · exact sized

/-- Small inputs, all of one size. -/
def smallInputs : DispatcherContext Nat Nat := ⟨none, 64, fun _ => 100, (· + 1)⟩

theorem lone_request_promised :
    (∀ before, before <+: [.send [0, 1, 2, 3, 4] (some 2) 500, .receive, .returns 0 .slots] →
      WindowsPromised smallInputs ((dispatcherMachine smallInputs 1).run before).inFlight) ∧
    ((dispatcherMachine smallInputs 1).run
      [.send [0, 1, 2, 3, 4] (some 2) 500, .receive, .returns 0 .slots]).calls.map Call.inputs = [[0, 1]] := by
  refine ⟨(calls_promised_iff smallInputs 1 _ ?_).2.mpr ⟨trivial, ⟨?_, trivial⟩, ?_, trivial⟩, rfl⟩
  · intro event member
    rcases List.mem_cons.mp member with rfl | later
    · rfl
    · rcases List.mem_cons.mp later with rfl | last
      · trivial
      · rw [List.mem_singleton.mp last]
        trivial
  · rintro ⟨own, isOwn, -, below, -⟩
    cases isOwn
    exact Nat.lt_irrefl 2 below
  · rintro ⟨own, isOwn, -, below, -⟩
    cases isOwn
    exact Nat.lt_irrefl 2 below

/-- A request with a larger cap behind it lets five inputs go in one call, of which its
own cap admits two. -/
theorem neighbour_lifts_cap :
    ¬∀ events : List (DispatchEvent Nat), (∀ event ∈ events, event.Sized smallInputs) →
      WindowsPromised smallInputs ((dispatcherMachine smallInputs 1).run events).inFlight := by
  intro claim
  have promised := claim [.send [0, 1, 2, 3, 4] (some 2) 500, .send [5] (some 64) 100, .receive] (by
    intro event member
    rcases List.mem_cons.mp member with rfl | later
    · rfl
    · rcases List.mem_cons.mp later with rfl | last
      · rfl
      · rw [List.mem_singleton.mp last]
        trivial)
  have call := promised ⟨0, 64, .calling (.single ⟨0, [0, 1, 2, 3, 4], some 2, 500⟩)⟩ (List.mem_singleton.mpr rfl)
  have within := (promised_calling.mp call).underOwn (by decide) ⟨0, [0, 1, 2, 3, 4], some 2, 500⟩
    (List.mem_singleton.mpr rfl) 2 rfl (by decide)
  exact absurd within (by decide)

end Panoptikon.Inferio.Dispatch
