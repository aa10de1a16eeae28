import Panoptikon.Extraction.Inference

/-!
# Outputs stay with their inputs

Each input has a slot in the response that answered it: that of its chunk, or its
own after the chunk failed. Whatever the chunks are, what comes back for the item is
what one response with all these slots would say.
-/

namespace Panoptikon.Extraction

open Foundation
open Panoptikon.Inferio (PredictOutput PredictResponse PredictSlotError SlotError Payload)

abbrev Slot := Except SlotError Payload

/-- One output for each slot that did not fail, and every failure at a position of its own. -/
structure WellFormed (count : Nat) (response : PredictResponse) : Prop where
  counted : response.outputs.payloads.length + response.errors.length = count
  distinct : (response.errors.map (·.index)).Nodup
  inside : ∀ error ∈ response.errors, error.index < count

/-- The response says what the slots hold. -/
def Answers (slots : List Slot) (response : PredictResponse) : Prop :=
  response.outputs.payloads = survivors slots ∧
    response.errors.Perm ((failures 0 slots).map SlotError.at)

def failureOf (error : PredictSlotError) : Nat × SlotError :=
  (error.index, ⟨error.errorClass, error.message⟩)

variable (errors : List PredictSlotError)

theorem at_failure_of : (errors.map failureOf).map SlotError.at = errors := by
  rw [List.map_map]
  exact List.map_id'' (fun _ => rfl) errors

variable {response : PredictResponse}

theorem well_formed_answers {count : Nat} (wellFormed : WellFormed count response) :
    ∃ slots : List Slot, slots.length = count ∧ Answers slots response := by
  have positions : (response.errors.map failureOf).map Prod.fst = response.errors.map (·.index) := by
    rw [List.map_map]
    rfl
  have distinct : ((response.errors.map failureOf).map Prod.fst).Nodup := positions ▸ wellFormed.distinct
  have inside : ∀ failure ∈ response.errors.map failureOf, failure.1 < count := by
    intro failure member
    obtain ⟨error, listed, rfl⟩ := List.mem_map.mp member
    exact wellFormed.inside error listed
  have total := open_positions_length _ distinct inside
  have counted : response.outputs.payloads.length =
      (openPositions (response.errors.map failureOf) (List.range count)).length := by
    have := wellFormed.counted
    rw [List.length_map] at total
    omega
  rw [List.range_eq_range'] at counted
  obtain ⟨length, outputs⟩ := fill_slots_spec _ counted
  refine ⟨_, length.trans List.length_range', outputs.symm, ?_⟩
  rw [fill_slots_failures _ counted, ← List.range_eq_range']
  have found := (found_failures_perm _ distinct inside).map SlotError.at
  rw [at_failure_of] at found
  exact found.symm

section

variable {Input : Type} (predict : PredictUnits Input)

/-- Every input of a chunk was answered in a call of its own, from the given one on. -/
inductive AnsweredAlone : Nat → List Input → List Slot → Prop
  | nil (call : Nat) : AnsweredAlone call [] []
  | cons {call : Nat} {input : Input} {rest : List Input} {slot : Slot} {slots : List Slot}
      {response : PredictResponse} (returned : predict call isolationMaxBatch [input] = .ok response)
      (answers : Answers [slot] response) (later : AnsweredAlone (call + 1) rest slots) :
      AnsweredAlone call (input :: rest) (slot :: slots)

/-- A chunk was answered, from one call up to another. -/
inductive ChunkAnswered (cap : Nat) (call : Nat) (chunk : List Input) (slots : List Slot) : Nat → Prop
  | whole {response : PredictResponse} (returned : predict call cap chunk = .ok response)
      (length : slots.length = chunk.length) (answers : Answers slots response) :
      ChunkAnswered cap call chunk slots (call + 1)
  | recovered {failure : Failure} (failed : predict call cap chunk = .error failure)
      (ordinary : isProtocolViolation failure = false) (several : 1 < chunk.length)
      (alone : AnsweredAlone predict (call + 1) chunk slots) :
      ChunkAnswered cap call chunk slots (call + 1 + chunk.length)

/-- All chunks were answered, the first from the given call on. -/
inductive Answered (cap : Nat) : Nat → List (List Input) → List Slot → Prop
  | nil (call : Nat) : Answered cap call [] []
  | cons {call next : Nat} {chunk : List Input} {rest : List (List Input)} {slots more : List Slot}
      (here : ChunkAnswered predict cap call chunk slots next) (later : Answered cap next rest more) :
      Answered cap call (chunk :: rest) (slots ++ more)

variable {predict}

theorem alone_length {call : Nat} {inputs : List Input} {slots : List Slot}
    (alone : AnsweredAlone predict call inputs slots) : slots.length = inputs.length := by
  induction alone with
  | nil => rfl
  | cons returned answers later ih => exact congrArg (· + 1) ih

theorem chunk_length {cap call next : Nat} {chunk : List Input} {slots : List Slot}
    (here : ChunkAnswered predict cap call chunk slots next) : slots.length = chunk.length := by
  cases here with
  | whole returned length answers => exact length
  | recovered failed ordinary several alone => exact alone_length alone

theorem answered_length {cap call : Nat} {parts : List (List Input)} {slots : List Slot}
    (answered : Answered predict cap call parts slots) : slots.length = parts.flatten.length := by
  induction answered with
  | nil => rfl
  | cons here later ih =>
    rw [List.length_append, chunk_length here, ih, List.flatten_cons, List.length_append]

end

def isJsonPayload : Payload → Bool
  | .json _ => true
  | .binary _ => false

/-- Payloads that fit in one list of outputs. -/
def Uniform (payloads : List Payload) : Prop :=
  (∀ payload ∈ payloads, isJsonPayload payload = true) ∨ ∀ payload ∈ payloads, isJsonPayload payload = false

theorem uniform_of_subset {payloads part : List Payload} (uniform : Uniform payloads)
    (inside : part ⊆ payloads) : Uniform part :=
  uniform.imp (fun all payload member => all payload (inside member))
    fun all payload member => all payload (inside member)

def mergedPayloads (merged : Option PredictOutput) : List Payload :=
  (merged.map PredictOutput.payloads).getD []

/-- What is merged is nothing or not empty. -/
def Tight (merged : Option PredictOutput) : Prop :=
  ∀ outputs, merged = some outputs → outputs.isEmpty = false

variable {outputs : PredictOutput}

theorem is_empty_payloads (empty : outputs.isEmpty = true) : outputs.payloads = [] := by
  cases outputs <;>
    simpa [PredictOutput.isEmpty, PredictOutput.len, PredictOutput.payloads] using empty

theorem payloads_of_not_empty (nonempty : outputs.isEmpty = false) : outputs.payloads ≠ [] := by
  cases outputs <;>
    simpa [PredictOutput.isEmpty, PredictOutput.len, PredictOutput.payloads] using nonempty

theorem merge_outputs_ok {first second outputs : PredictOutput}
    (returned : mergeOutputs first second = .ok outputs) :
    outputs.payloads = first.payloads ++ second.payloads := by
  cases first <;> cases second <;> cases returned <;> exact List.map_append

theorem mixed_not_uniform {payloads : List Payload} {value : Inferio.JsonValue} {bytes : List UInt8}
    (json : .json value ∈ payloads) (binary : .binary bytes ∈ payloads) : ¬Uniform payloads := by
  rintro (allJson | allBinary)
  · cases allJson _ binary
  · cases allBinary _ json

theorem merge_outputs_returns {first second : PredictOutput} (nonemptyFirst : first.isEmpty = false)
    (nonemptySecond : second.isEmpty = false) (uniform : Uniform (first.payloads ++ second.payloads)) :
    ∃ outputs, mergeOutputs first second = .ok outputs := by
  match first, second with
  | .json values, .json others => exact ⟨_, rfl⟩
  | .binary values, .binary others => exact ⟨_, rfl⟩
  | .json [], _ => cases nonemptyFirst
  | .binary [], _ => cases nonemptyFirst
  | _, .json [] => cases nonemptySecond
  | _, .binary [] => cases nonemptySecond
  | .json (value :: values), .binary (other :: others) =>
    exact absurd uniform (mixed_not_uniform (List.mem_append_left _ List.mem_cons_self)
      (List.mem_append_right _ List.mem_cons_self))
  | .binary (value :: values), .json (other :: others) =>
    exact absurd uniform (mixed_not_uniform (List.mem_append_right _ List.mem_cons_self)
      (List.mem_append_left _ List.mem_cons_self))

variable {merged next : Option PredictOutput}

theorem merge_next_ok (tight : Tight merged) (returned : mergeNext merged outputs = .ok next) :
    Tight next ∧ mergedPayloads next = mergedPayloads merged ++ outputs.payloads := by
  unfold mergeNext at returned
  split at returned
  · rename_i empty
    cases returned
    rw [is_empty_payloads empty, List.append_nil]
    exact ⟨tight, rfl⟩
  · rename_i nonempty
    have isNonempty := eq_false_of_ne_true nonempty
    cases merged with
    | none =>
      cases returned
      exact ⟨fun _ same => Option.some.inj same ▸ isNonempty, rfl⟩
    | some previous =>
      cases merging : mergeOutputs previous outputs with
      | error failure =>
        simp only [merging] at returned
        cases returned
      | ok joined =>
        simp only [merging] at returned
        cases returned
        have same := merge_outputs_ok merging
        refine ⟨fun other isOther => ?_, same⟩
        obtain rfl : joined = other := Option.some.inj isOther
        refine eq_false_of_ne_true fun empty => payloads_of_not_empty isNonempty ?_
        have none := is_empty_payloads empty
        rw [same] at none
        exact (List.append_eq_nil_iff.mp none).2

theorem merge_next_returns {merged : Option PredictOutput} (tight : Tight merged)
    (uniform : Uniform (mergedPayloads merged ++ outputs.payloads)) :
    ∃ next, mergeNext merged outputs = .ok next := by
  unfold mergeNext
  split
  · exact ⟨merged, rfl⟩
  · rename_i nonempty
    cases merged with
    | none => exact ⟨some outputs, rfl⟩
    | some previous =>
      obtain ⟨joined, merging⟩ :=
        merge_outputs_returns (tight previous rfl) (eq_false_of_ne_true nonempty) uniform
      refine ⟨some joined, ?_⟩
      simp only [merging]
      rfl

theorem shifted_failures (base : Nat) (slots : List Slot) :
    ((failures 0 slots).map SlotError.at).map (shiftIndex base) =
      (failures base slots).map SlotError.at := by
  have shifted := failures_shift 0 base slots
  rw [Nat.zero_add] at shifted
  rw [shifted, List.map_map, List.map_map]
  rfl

/-- What has been collected once the slots from a position on have been added. -/
structure Collected (merged : Option PredictOutput) (errors : List PredictSlotError) (base : Nat)
    (slots : List Slot) (next : Option PredictOutput) (all : List PredictSlotError) : Prop where
  tight : Tight next
  payloads : mergedPayloads next = mergedPayloads merged ++ survivors slots
  errors : all.Perm (errors ++ (failures base slots).map SlotError.at)

theorem collected_nil {merged : Option PredictOutput} (base : Nat)
    (tight : Tight merged) : Collected merged errors base [] merged errors :=
  ⟨tight, (List.append_nil _).symm, by rw [failures, List.map_nil, List.append_nil]⟩

theorem collected_response (base : Nat) {slots : List Slot} (tight : Tight merged)
    (answers : Answers slots response) (returned : mergeNext merged response.outputs = .ok next) :
    Collected merged errors base slots next (errors ++ response.errors.map (shiftIndex base)) := by
  obtain ⟨isTight, payloads⟩ := merge_next_ok tight returned
  refine ⟨isTight, by rw [payloads, answers.1], ?_⟩
  rw [← shifted_failures]
  exact (answers.2.map (shiftIndex base)).append_left errors

theorem collected_trans {merged middle next : Option PredictOutput}
    {errors some all : List PredictSlotError} {base : Nat} {slots more : List Slot}
    (first : Collected merged errors base slots middle some)
    (second : Collected middle some (base + slots.length) more next all) :
    Collected merged errors base (slots ++ more) next all := by
  refine ⟨second.tight, ?_, ?_⟩
  · rw [second.payloads, first.payloads, survivors_append, List.append_assoc]
  · rw [failures_append, List.map_append, ← List.append_assoc]
    exact second.errors.trans (first.errors.append_right _)

section

variable {Input : Type} {predict : PredictUnits Input}

theorem uniform_first {slots more : List Slot}
    (uniform : Uniform (mergedPayloads merged ++ survivors (slots ++ more)))
    (payloads : mergedPayloads next = mergedPayloads merged ++ survivors slots) :
    Uniform (mergedPayloads next ++ survivors more) := by
  rwa [payloads, List.append_assoc, ← survivors_append]

/-- The isolation pass collects the slots its calls answered, unless they cannot be merged. -/
theorem isolate_collects {call index : Nat} {inputs : List Input} {slots : List Slot}
    (alone : AnsweredAlone predict call inputs slots) {merged : Option PredictOutput}
    (errors : List PredictSlotError) (tight : Tight merged) :
    (∀ response next, isolateFrom predict index merged errors call inputs = (.ok response, next) →
      next = call + inputs.length ∧ ∃ last, response.outputs = last.getD (.json []) ∧
        Collected merged errors index slots last response.errors) ∧
    (Uniform (mergedPayloads merged ++ survivors slots) →
      ∃ response next, isolateFrom predict index merged errors call inputs = (.ok response, next)) := by
  induction alone generalizing index merged errors with
  | nil call =>
    refine ⟨fun response next returned => ?_, fun _ => ⟨_, _, rfl⟩⟩
    cases returned
    exact ⟨rfl, merged, rfl, collected_nil errors index tight⟩
  | @cons call input rest slot slots answer returned answers later ih =>
    cases merging : mergeNext merged answer.outputs with
    | error failure =>
      refine ⟨fun response next ended => ?_, fun uniform => ?_⟩
      · simp only [isolateFrom, returned, merging] at ended
        cases ended
      · have part : Uniform (mergedPayloads merged ++ answer.outputs.payloads) := by
          refine uniform_of_subset uniform ?_
          have split : survivors (slot :: slots) = survivors [slot] ++ survivors slots :=
            survivors_append [slot] slots
          rw [answers.1, split, ← List.append_assoc]
          exact List.subset_append_left _ _
        obtain ⟨joined, isJoined⟩ := merge_next_returns tight part
        rw [isJoined] at merging
        cases merging
    | ok joined =>
      have first := collected_response errors index tight answers merging
      obtain ⟨sound, complete⟩ := @ih (index + 1) joined
        (errors ++ answer.errors.map (shiftIndex index)) first.tight
      constructor
      · intro response next ended
        simp only [isolateFrom, returned, merging] at ended
        obtain ⟨isNext, last, outputs, rest⟩ := sound response next ended
        refine ⟨?_, last, outputs, @collected_trans _ _ _ _ _ _ _ [slot] slots first rest⟩
        rw [isNext, List.length_cons]
        omega
      · intro uniform
        simp only [isolateFrom, returned, merging]
        exact complete (@uniform_first _ _ [slot] slots uniform first.payloads)

theorem merged_default {last : Option PredictOutput} : (last.getD (.json [])).payloads = mergedPayloads last := by
  cases last <;> rfl

theorem chunk_answers {cap call next : Nat} {chunk : List Input} {slots : List Slot}
    (here : ChunkAnswered predict cap call chunk slots next) :
    (∀ response after, predictChunk predict cap call chunk = (.ok response, after) →
      after = next ∧ Answers slots response) ∧
    (Uniform (survivors slots) →
      ∃ response after, predictChunk predict cap call chunk = (.ok response, after)) := by
  cases here with
  | whole returned length answers =>
    simp only [predictChunk, returned]
    refine ⟨fun response after ended => ?_, fun _ => ⟨_, _, rfl⟩⟩
    cases ended
    exact ⟨rfl, answers⟩
  | recovered failed ordinary several alone =>
    have tight : Tight none := fun _ same => by cases same
    obtain ⟨sound, complete⟩ := @isolate_collects _ predict _ 0 _ _ alone none [] tight
    simp only [predictChunk, failed, ordinary, Bool.false_eq_true, if_false, if_pos several]
    constructor
    · intro response after ended
      rcases passed : isolateInputs predict (call + 1) chunk with ⟨result, last⟩
      simp only [passed] at ended
      cases result with
      | error cause => cases ended
      | ok answer =>
        cases ended
        obtain ⟨isNext, collected, outputs, same⟩ := sound _ _ passed
        refine ⟨isNext, ?_, same.errors⟩
        rw [outputs, merged_default, same.payloads]
        rfl
    · intro uniform
      obtain ⟨response, after, passed⟩ := complete uniform
      have whole : isolateInputs predict (call + 1) chunk = (.ok response, after) := passed
      exact ⟨response, after, by simp only [whole]⟩

/-- The loop collects the slots the chunks were answered with, unless they cannot be merged. -/
theorem chunks_collect {cap call base : Nat} {parts : List (List Input)} {slots : List Slot}
    (answered : Answered predict cap call parts slots) {merged : Option PredictOutput}
    (errors : List PredictSlotError) (tight : Tight merged) :
    (∀ last all next, runChunks predict cap base merged errors call parts = (.ok (last, all), next) →
      Collected merged errors base slots last all) ∧
    (Uniform (mergedPayloads merged ++ survivors slots) →
      ∃ last all next, runChunks predict cap base merged errors call parts = (.ok (last, all), next)) := by
  induction answered generalizing base merged errors with
  | nil call =>
    refine ⟨fun last all next returned => ?_, fun _ => ⟨_, _, _, rfl⟩⟩
    cases returned
    exact collected_nil errors base tight
  | @cons call next chunk rest slots more here later ih =>
    obtain ⟨answers, returns⟩ := chunk_answers here
    rcases predicted : predictChunk predict cap call chunk with ⟨result, after⟩
    have uniform_here : Uniform (mergedPayloads merged ++ survivors (slots ++ more)) →
        Uniform (mergedPayloads merged ++ survivors slots) := fun uniform =>
      uniform_of_subset uniform (by
        rw [survivors_append, ← List.append_assoc]
        exact List.subset_append_left _ _)
    cases result with
    | error failure =>
      refine ⟨fun last all finish ended => ?_, fun uniform => ?_⟩
      · simp only [runChunks, predicted] at ended
        cases ended
      · obtain ⟨response, other, returned⟩ := returns
          (uniform_of_subset (uniform_here uniform) (List.subset_append_right _ _))
        rw [predicted] at returned
        cases returned
    | ok response =>
      obtain ⟨rfl, isAnswer⟩ := answers response after predicted
      cases merging : mergeNext merged response.outputs with
      | error failure =>
        refine ⟨fun last all finish ended => ?_, fun uniform => ?_⟩
        · simp only [runChunks, predicted, merging] at ended
          cases ended
        · have part := uniform_here uniform
          rw [← isAnswer.1] at part
          obtain ⟨joined, isJoined⟩ := merge_next_returns tight part
          rw [isJoined] at merging
          cases merging
      | ok joined =>
        have first := collected_response errors base tight isAnswer merging
        obtain ⟨sound, complete⟩ := @ih (base + chunk.length) joined
          (errors ++ response.errors.map (shiftIndex base)) first.tight
        constructor
        · intro last all finish ended
          simp only [runChunks, predicted, merging] at ended
          have rest := sound last all finish ended
          rw [← chunk_length here] at rest
          exact collected_trans first rest
        · intro uniform
          simp only [runChunks, predicted, merging]
          exact complete (uniform_first uniform first.payloads)

end

variable {size : Nat}

theorem chunks_within_flatten {Input : Type} (positive : 1 ≤ size) {fuel : Nat}
    {inputs : List Input} (enough : inputs.length ≤ fuel) : (chunksWithin size fuel inputs).flatten = inputs := by
  induction fuel generalizing inputs with
  | zero =>
    rw [List.eq_nil_of_length_eq_zero (Nat.le_zero.mp enough)]
    rfl
  | succ fuel ih =>
    cases inputs with
    | nil => rfl
    | cons input rest =>
      have shorter : ((input :: rest).drop size).length ≤ fuel := by
        rw [List.length_drop]
        rw [List.length_cons] at enough ⊢
        omega
      simp only [chunksWithin, List.flatten_cons, ih shorter, List.take_append_drop]

theorem chunks_flatten {Input : Type} (positive : 1 ≤ size) (inputs : List Input) :
    (chunks size inputs).flatten = inputs :=
  chunks_within_flatten positive (Nat.le_refl _)

theorem chunks_single {Input : Type} {inputs : List Input} (nonempty : inputs ≠ [])
    (fits : inputs.length ≤ size) : chunks size inputs = [inputs] := by
  cases inputs with
  | nil => exact absurd rfl nonempty
  | cons input rest =>
    simp only [chunks, List.length_cons, chunksWithin, List.take_of_length_le fits,
      List.drop_of_length_le fits]
    cases rest.length <;> rfl

section

variable {Input : Type} {predict : PredictUnits Input}

theorem isolate_answered
    (wellFormed : ∀ call cap slice response, predict call cap slice = .ok response →
      WellFormed slice.length response)
    {call index next : Nat} {inputs : List Input} {merged : Option PredictOutput} {errors : List PredictSlotError}
    (returned : isolateFrom predict index merged errors call inputs = (.ok response, next)) :
    ∃ slots, AnsweredAlone predict call inputs slots := by
  induction inputs generalizing call index merged errors with
  | nil => exact ⟨[], .nil call⟩
  | cons input rest ih =>
    unfold isolateFrom at returned
    split at returned
    · cases returned
    · rename_i answer answered
      split at returned
      · cases returned
      · obtain ⟨slots, later⟩ := ih returned
        obtain ⟨single, length, answers⟩ := well_formed_answers (wellFormed _ _ _ _ answered)
        obtain ⟨slot, rfl⟩ := List.length_eq_one_iff.mp length
        exact ⟨slot :: slots, .cons answered answers later⟩

theorem chunk_answered
    (wellFormed : ∀ call cap slice response, predict call cap slice = .ok response →
      WellFormed slice.length response)
    {cap call next : Nat} {chunk : List Input}
    (returned : predictChunk predict cap call chunk = (.ok response, next)) :
    ∃ slots, ChunkAnswered predict cap call chunk slots next := by
  unfold predictChunk at returned
  split at returned
  · rename_i answer answered
    cases returned
    obtain ⟨slots, length, answers⟩ := well_formed_answers (wellFormed _ _ _ _ answered)
    exact ⟨slots, .whole answered length answers⟩
  · rename_i failure failed
    split at returned
    · cases returned
    · rename_i ordinary
      split at returned
      · rename_i several
        split at returned
        · rename_i answer after passed
          cases returned
          obtain ⟨slots, alone⟩ := isolate_answered wellFormed passed
          have tight : Tight none := fun _ same => by cases same
          obtain ⟨rfl, _⟩ := (@isolate_collects _ predict _ 0 _ _ alone none [] tight).1 _ _ passed
          exact ⟨slots, .recovered failed (eq_false_of_ne_true ordinary) several alone⟩
        · cases returned
      · cases returned

theorem chunks_answered
    (wellFormed : ∀ call cap slice response, predict call cap slice = .ok response →
      WellFormed slice.length response)
    {cap call base : Nat} {parts : List (List Input)} {merged : Option PredictOutput}
    {errors : List PredictSlotError} {collected : Option PredictOutput × List PredictSlotError}
    {next : Nat} (returned : runChunks predict cap base merged errors call parts = (.ok collected, next)) :
    ∃ slots, Answered predict cap call parts slots := by
  induction parts generalizing call base merged errors with
  | nil => exact ⟨[], .nil call⟩
  | cons chunk rest ih =>
    unfold runChunks at returned
    split at returned
    · cases returned
    · rename_i response after predicted
      split at returned
      · cases returned
      · obtain ⟨more, later⟩ := ih returned
        obtain ⟨slots, here⟩ := chunk_answered wellFormed predicted
        exact ⟨slots ++ more, .cons here later⟩

end

/-- The calls made for an item answered its inputs with these slots. -/
def ItemAnswered {Input : Type} (predict : PredictUnits Input) (unitCapacity : Nat) (inputs : List Input)
    (slots : List Slot) : Prop :=
  Answered predict (chunkCap (max unitCapacity 1)) 0 (chunks (max unitCapacity 1) inputs) slots

/-- What came back is what the slots hold, and nothing came back as nothing. -/
structure Aligned (total : Nat) (slots : List Slot) (inference : ItemInference) : Prop where
  length : slots.length = total
  payloads : inference.outputs.payloads = survivors slots
  errors : inference.slotErrors.Perm ((failures 0 slots).map SlotError.at)
  nothing : inference.outputs.payloads = [] → inference.outputs = .json []

variable {unitCapacity : Nat}

theorem answered_item_length {Input : Type} {predict : PredictUnits Input}
    {inputs : List Input} {slots : List Slot} (answered : ItemAnswered predict unitCapacity inputs slots) :
    slots.length = inputs.length := by
  rw [answered_length answered, chunks_flatten (Nat.le_max_right _ _)]

theorem tight_none : Tight none := fun _ same => by cases same

variable {inference : ItemInference}

theorem inference_aligned {Input : Type} {predict : PredictUnits Input} {inputs : List Input} {slots : List Slot}
    (answered : ItemAnswered predict unitCapacity inputs slots)
    (returned : runChunkedInference predict unitCapacity inputs = .ok inference) :
    Aligned inputs.length slots inference := by
  have length := answered_item_length answered
  obtain ⟨sound, -⟩ := @chunks_collect _ predict _ _ 0 _ _ answered none [] tight_none
  unfold runChunkedInference at returned
  rcases passed : runChunks predict (chunkCap (max unitCapacity 1)) 0 none [] 0
    (chunks (max unitCapacity 1) inputs) with ⟨result, next⟩
  simp only [passed] at returned
  split at returned
  · cases returned
  · cases returned
    have collected := sound _ _ _ passed
    refine ⟨length, collected.payloads, collected.errors, fun none => ?_⟩
    exact absurd none (payloads_of_not_empty (collected.tight _ rfl))
  · split at returned
    · cases returned
    · cases returned
      have collected := sound _ _ _ passed
      exact ⟨length, collected.payloads, collected.errors, fun _ => rfl⟩

theorem inference_returns {Input : Type} {predict : PredictUnits Input}
    {inputs : List Input} {slots : List Slot} (nonempty : inputs ≠ [])
    (answered : ItemAnswered predict unitCapacity inputs slots) (uniform : Uniform (survivors slots)) :
    ∃ inference, runChunkedInference predict unitCapacity inputs = .ok inference := by
  have length := answered_item_length answered
  obtain ⟨sound, complete⟩ := @chunks_collect _ predict _ _ 0 _ _ answered none [] tight_none
  obtain ⟨last, all, next, passed⟩ := complete uniform
  have collected := sound _ _ _ passed
  simp only [runChunkedInference, passed]
  cases last with
  | some outputs => exact ⟨_, rfl⟩
  | none =>
    cases all with
    | cons error errors => exact ⟨_, rfl⟩
    | nil =>
      -- No output and no error leave no slot, but every input has one.
      have noOutputs : survivors slots = [] := collected.payloads.symm
      have noErrors : failures 0 slots = [] :=
        List.map_eq_nil_iff.mp (List.nil_perm.mp collected.errors)
      cases slots with
      | nil => exact absurd (List.eq_nil_of_length_eq_zero length.symm) nonempty
      | cons slot slots =>
        cases slot with
        | error failure => cases noErrors
        | ok payload => cases noOutputs

variable {total : Nat}

theorem surviving_indices {slots : List Slot} (aligned : Aligned total slots inference) :
    (survivingInputIndices total inference.slotErrors).getD (List.range total) =
      survivingPositions 0 slots := by
  have named : ∀ index, index ∈ inference.slotErrors.map (·.index) ↔
      index ∈ (failures 0 slots).map Prod.fst := by
    intro index
    have same := (aligned.errors.map (·.index)).mem_iff (a := index)
    rwa [List.map_map] at same
  have kept : (List.range total).filter (fun index => index ∉ inference.slotErrors.map (·.index)) =
      survivingPositions 0 slots := by
    rw [surviving_positions_eq, aligned.length, List.range_eq_range']
    exact List.filter_congr fun index _ => by simp only [named]
  unfold survivingInputIndices
  split
  · rename_i none
    rw [← kept, List.isEmpty_iff.mp none]
    simp
  · exact kept

theorem output_index_slot {slots : List Slot}
    (aligned : Aligned total slots inference) {position : Nat} {payload : Payload}
    (listed : inference.outputs.payloads[position]? = some payload) :
    ∃ index, inputIndex (survivingInputIndices total inference.slotErrors) position = some index ∧
      slots[index]? = some (.ok payload) := by
  rw [aligned.payloads] at listed
  obtain ⟨index, isIndex, isSlot⟩ := @surviving_positions_get _ _ 0 _ _ _ listed
  rw [Nat.zero_add, ← surviving_indices aligned] at isIndex
  refine ⟨index, ?_, isSlot⟩
  cases survivors : survivingInputIndices total inference.slotErrors with
  | some map => simpa [survivors, inputIndex] using isIndex
  | none =>
    simp only [survivors, Option.getD_none] at isIndex
    obtain ⟨inside, same⟩ := List.getElem?_eq_some_iff.mp isIndex
    rw [List.getElem_range] at same
    rw [inputIndex, same]

theorem error_index_iff {slots : List Slot}
    (aligned : Aligned total slots inference) (index : Nat) (failure : SlotError) :
    SlotError.at (index, failure) ∈ inference.slotErrors ↔ slots[index]? = some (.error failure) := by
  rw [aligned.errors.mem_iff, List.mem_map]
  constructor
  · rintro ⟨⟨position, other⟩, listed, same⟩
    have isIndex : position = index := congrArg PredictSlotError.index same
    have isFailure : other = failure := by
      rcases other with ⟨otherClass, otherMessage⟩
      rcases failure with ⟨errorClass, message⟩
      rw [SlotError.mk.injEq]
      exact ⟨congrArg PredictSlotError.errorClass same, congrArg PredictSlotError.message same⟩
    subst isIndex isFailure
    exact (mem_failures.mp listed).2
  · exact fun isSlot => ⟨(index, failure), mem_failures.mpr ⟨Nat.zero_le _, isSlot⟩, rfl⟩

theorem uniform_outputs {first second : PredictOutput} (same : first.payloads = second.payloads)
    (nonempty : first.payloads ≠ []) : first = second := by
  have injectiveJson : Function.Injective Payload.json := fun _ _ => Payload.json.inj
  have injectiveBinary : Function.Injective Payload.binary := fun _ _ => Payload.binary.inj
  cases first with
  | json values =>
    cases second with
    | json others => exact congrArg _ (List.map_injective_iff.mpr injectiveJson same)
    | binary others =>
      cases values with
      | nil => exact absurd rfl nonempty
      | cons value values => cases others <;> cases same
  | binary values =>
    cases second with
    | binary others => exact congrArg _ (List.map_injective_iff.mpr injectiveBinary same)
    | json others =>
      cases values with
      | nil => exact absurd rfl nonempty
      | cons value values => cases others <;> cases same

/-- Two results from the same slots are the same, the order of their errors apart. -/
theorem aligned_same {slots : List Slot} {first second : ItemInference}
    (isFirst : Aligned total slots first) (isSecond : Aligned total slots second) :
    first.outputs = second.outputs ∧ first.slotErrors.Perm second.slotErrors := by
  refine ⟨?_, isFirst.errors.trans isSecond.errors.symm⟩
  have same := isFirst.payloads.trans isSecond.payloads.symm
  by_cases nothing : first.outputs.payloads = []
  · rw [isFirst.nothing nothing, isSecond.nothing (same ▸ nothing)]
  · exact uniform_outputs same nothing

/-- Every output has the index of an input whose slot holds it, none is missing, and the errors are
those of the inputs whose slots failed. -/
structure InLine (total : Nat) (slots : List Slot) (inference : ItemInference) : Prop where
  length : slots.length = total
  payloads : inference.outputs.payloads = survivors slots
  index : ∀ position payload, inference.outputs.payloads[position]? = some payload →
    ∃ index, inputIndex (survivingInputIndices total inference.slotErrors) position = some index ∧
      slots[index]? = some (.ok payload)
  errors : ∀ index failure,
    SlotError.at (index, failure) ∈ inference.slotErrors ↔ slots[index]? = some (.error failure)

/-- What one request that takes all the inputs at once is made of, when it answers with these slots. -/
def WholeRequest {Input : Type} (inputs : List Input) (slots : List Slot) (single : ItemInference) : Prop :=
  ∃ (predict : PredictUnits Input) (capacity : Nat) (response : PredictResponse),
    inputs.length ≤ capacity ∧ predict 0 (chunkCap (max capacity 1)) inputs = .ok response ∧
      Answers slots response ∧ runChunkedInference predict capacity inputs = .ok single

theorem whole_request_aligned {Input : Type} {inputs : List Input} {slots : List Slot}
    {single : ItemInference} (nonempty : inputs ≠ []) (length : slots.length = inputs.length)
    (whole : WholeRequest inputs slots single) : Aligned inputs.length slots single := by
  obtain ⟨predict, capacity, response, fits, answered, answers, returned⟩ := whole
  refine inference_aligned ?_ returned
  have one := chunks_single nonempty (fits.trans (Nat.le_max_left capacity 1))
  have here := Answered.cons (.whole answered length answers) (@Answered.nil Input predict _ 1)
  rw [List.append_nil] at here
  rw [ItemAnswered, one]
  exact here

theorem no_inputs_no_outputs {Input : Type} (predict : PredictUnits Input) (unitCapacity : Nat) :
    runChunkedInference predict unitCapacity [] = .error .noOutputs := rfl

theorem processed_errors {Input : Type} {predict : PredictUnits Input}
    {textEntity : Bool} {surroundings : Surroundings} {inputs : List Input}
    (processed : processItem predict unitCapacity textEntity surroundings (.ok inputs) = .processed)
    (nonempty : inputs ≠ []) : ∃ inference, runChunkedInference predict unitCapacity inputs = .ok inference ∧
      ∀ error ∈ inference.slotErrors, error.errorClass = .input := by
  cases inputs with
  | nil => exact absurd rfl nonempty
  | cons input rest =>
    unfold processItem at processed
    cases returned : runChunkedInference predict unitCapacity (input :: rest) with
    | error failure =>
      simp only [returned] at processed
      cases processed
    | ok inference =>
      refine ⟨inference, rfl, ?_⟩
      simp only [returned] at processed
      have proceeds : classifySlotErrors (input :: rest).length inference.slotErrors textEntity =
          .proceed := by
        split at processed
        · cases processed
        · split at processed <;> cases processed
        · assumption
      unfold classifySlotErrors at proceeds
      split at proceeds
      · rename_i none
        rw [List.isEmpty_iff.mp none]
        exact nofun
      · split at proceeds
        · cases proceeds
        · rename_i allInput
          simpa using allInput

/-- Whatever the chunks and however they were recovered, a result for an item is in line with the
slots its inputs were answered with, and is the result of one request for all of them. An item
all of whose inputs were answered has a result, and it is stored only when every error is of the
input class. -/
theorem run_chunked_aligned {Input : Type} (predict : PredictUnits Input)
    (wellFormed : ∀ call cap slice response, predict call cap slice = .ok response →
      WellFormed slice.length response)
    (unitCapacity : Nat) (inputs : List Input) :
    (∀ inference, runChunkedInference predict unitCapacity inputs = .ok inference →
      ∃ slots, ItemAnswered predict unitCapacity inputs slots ∧ InLine inputs.length slots inference ∧
        ∀ single, WholeRequest inputs slots single →
          inference.outputs = single.outputs ∧ inference.slotErrors.Perm single.slotErrors) ∧
    (∀ slots, ItemAnswered predict unitCapacity inputs slots → Uniform (survivors slots) → inputs ≠ [] →
      ∃ inference, runChunkedInference predict unitCapacity inputs = .ok inference ∧
        InLine inputs.length slots inference) ∧
    ∀ textEntity surroundings,
      processItem predict unitCapacity textEntity surroundings (.ok inputs) = .processed → inputs ≠ [] →
        ∃ inference, runChunkedInference predict unitCapacity inputs = .ok inference ∧
          ∀ error ∈ inference.slotErrors, error.errorClass = .input := by
  have inLine : ∀ slots inference, Aligned inputs.length slots inference →
      InLine inputs.length slots inference := fun slots inference aligned =>
    ⟨aligned.length, aligned.payloads, fun _ _ => output_index_slot aligned, error_index_iff aligned⟩
  refine ⟨fun inference returned => ?_, fun slots answered uniform nonempty => ?_, ?_⟩
  · have nonempty : inputs ≠ [] := by
      rintro rfl
      rw [no_inputs_no_outputs] at returned
      cases returned
    have isAnswered : ∃ slots, ItemAnswered predict unitCapacity inputs slots := by
      rcases passed : runChunks predict (chunkCap (max unitCapacity 1)) 0 none [] 0
        (chunks (max unitCapacity 1) inputs) with ⟨result, next⟩
      cases result with
      | error failure =>
          simp only [runChunkedInference, passed] at returned
          cases returned
      | ok collected => exact chunks_answered wellFormed passed
    obtain ⟨slots, answered⟩ := isAnswered
    have aligned := inference_aligned answered returned
    refine ⟨slots, answered, inLine slots inference aligned, fun single whole => ?_⟩
    exact aligned_same aligned (whole_request_aligned nonempty aligned.length whole)
  · obtain ⟨inference, returned⟩ := inference_returns nonempty answered uniform
    exact ⟨inference, returned, inLine slots inference (inference_aligned answered returned)⟩
  · exact fun textEntity surroundings processed nonempty => processed_errors processed nonempty

/-- A worker that refuses batches and rejects the input of its third call. -/
def refusesBatches : PredictUnits Nat := fun call _ inputs =>
  if inputs.length ≠ 1 then .error .predict
  else if call = 2 then .ok ⟨.json [], [⟨0, .input, "bad frame"⟩]⟩
  else .ok ⟨.json [.null], []⟩

theorem refused_batch_aligned :
    ∃ inference slots, runChunkedInference refusesBatches 2 [10, 11, 12] = .ok inference ∧
      inference.slotErrors = [⟨1, .input, "bad frame"⟩] ∧ InLine 3 slots inference := by
  have wellFormed : ∀ call cap slice response, refusesBatches call cap slice = .ok response →
      WellFormed slice.length response := by
    intro call cap slice response returned
    unfold refusesBatches at returned
    split at returned
    · cases returned
    · rename_i single
      have length : slice.length = 1 := of_not_not single
      rw [length]
      split at returned <;> cases returned
      · exact ⟨rfl, by simp, by simp⟩
      · exact ⟨rfl, by simp, by simp⟩
  obtain ⟨slots, -, inLine, -⟩ := (run_chunked_aligned refusesBatches wellFormed 2 [10, 11, 12]).1
    ⟨.json [.null, .null], [⟨1, .input, "bad frame"⟩]⟩ rfl
  exact ⟨_, slots, rfl, rfl, inLine⟩

end Panoptikon.Extraction
