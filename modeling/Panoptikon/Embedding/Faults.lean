import Panoptikon.Embedding.Npy

/-!
# When decoding an embedding faults

A step is faultless when it returns a result or an error. The header text can
fault in one place, a shape whose parentheses are in the wrong order; after it
only the product of the shape and the capacity of the row can.
-/

namespace Panoptikon.Embedding

open Foundation

def Faultless {Result : Type} (step : Parse Result) : Prop := ∀ fault, step ≠ .error (.panic fault)

section Steps

variable {Result Next : Type}

variable (result : Result)

@[simp] theorem faultless_ok : Faultless (.ok result : Parse Result) :=
  fun _ same => by cases same

@[simp] theorem faultless_pure : Faultless (pure result : Parse Result) :=
  faultless_ok result

@[simp] theorem faultless_fail (message : String) : Faultless (fail message : Parse Result) :=
  fun _ same => by cases same

@[simp] theorem faultless_ok_or (message : String) (result : Option Result) :
    Faultless (okOr message result) := by
  cases result <;> simp [okOr]

@[simp] theorem faultless_ensure (condition : Prop) [Decidable condition] (message : String) :
    Faultless (ensure condition message) := by
  unfold ensure
  split <;> simp

theorem not_faultless_panic (fault : Fault) : ¬Faultless (.error (.panic fault) : Parse Result) :=
  fun faultless => faultless fault rfl

@[simp] theorem faultless_sliced (result : Option Result) :
    Faultless (sliced result) ↔ result.isSome := by
  cases result with
  | none => simpa [sliced] using not_faultless_panic .slice
  | some result => simp [sliced]

@[simp] theorem faultless_usize_add (left right : Nat) :
    Faultless (usizeAdd left right) ↔ left + right < usizeLimit := by
  unfold usizeAdd
  split
  · simp [*]
  · simpa [*] using not_faultless_panic .overflow

@[simp] theorem faultless_usize_mul (left right : Nat) :
    Faultless (usizeMul left right) ↔ left * right < usizeLimit := by
  unfold usizeMul
  split
  · simp [*]
  · simpa [*] using not_faultless_panic .overflow

@[simp] theorem faultless_with_capacity (elements : Nat) :
    Faultless (withCapacity elements) ↔ elements * 4 < isizeLimit := by
  unfold withCapacity
  split
  · simp [*]
  · simpa [*] using not_faultless_panic .capacity

@[simp] theorem ok_bind (next : Result → Parse Next) :
    (.ok result : Parse Result) >>= next = next result := rfl

theorem faultless_bind {first : Parse Result} {next : Result → Parse Next} : Faultless (first >>= next) ↔
      Faultless first ∧ ∀ result, first = .ok result → Faultless (next result) := by
  cases first with
  | ok result =>
    refine ⟨fun faultless => ⟨faultless_ok result, ?_⟩, fun both => both.2 result rfl⟩
    rintro _ ⟨⟩
    exact faultless
  | error stop =>
    refine ⟨fun faultless => ⟨fun fault same => faultless fault ?_, fun _ same => by cases same⟩,
      fun both fault same => both.1 fault ?_⟩
    · cases same
      rfl
    · cases same
      rfl

@[simp] theorem faultless_map (convert : Result → Next) (step : Parse Result) :
    Faultless (convert <$> step) ↔ Faultless step := by
  cases step with
  | ok result => exact iff_of_true (faultless_ok _) (faultless_ok _)
  | error stop =>
    constructor
    · rintro faultless fault ⟨⟩
      exact faultless fault rfl
    · rintro faultless fault ⟨⟩
      exact faultless fault rfl

theorem faultless_map_m {visit : Result → Parse Next} {elems : List Result}
    (each : ∀ elem ∈ elems, Faultless (visit elem)) : Faultless (elems.mapM visit) := by
  induction elems with
  | nil => exact faultless_pure []
  | cons first rest ih =>
    rw [List.mapM_cons]
    refine faultless_bind.mpr ⟨each first List.mem_cons_self, fun _ _ => ?_⟩
    refine faultless_bind.mpr ⟨ih fun elem member => each elem (List.mem_cons_of_mem _ member), ?_⟩
    exact fun _ _ => faultless_pure _

end Steps

/-- A text that fits a slice. -/
abbrev Addressable (text : Text) : Prop := text.byteLength < isizeLimit

theorem trim_start_byte_length (text : Text) : text.trimStart.byteLength ≤ text.byteLength := by
  obtain ⟨front, same⟩ := List.dropWhile_suffix (l := text) Text.isWhitespace
  conv_rhs => rw [← same]
  rw [Text.byte_length_append, Text.trimStart]
  exact Nat.le_add_left _ _

theorem quoted_byte_length (quote : Char) (key : String) (ascii : quote.utf8Size = 1) :
    Text.byteLength (quoted quote key) = Text.byteLength key.toList + 2 := by
  simp [quoted, ascii]
  omega

variable {header : Text}

theorem key_found {key : String} {keyPos : Nat}
    (found : (Text.find (quoted '\'' key) header).or (Text.find (quoted '"' key) header) =
      some keyPos) :
    ∃ after, Text.sliceFrom header (keyPos + Text.byteLength (quoted '\'' key)) = some after ∧
      keyPos + Text.byteLength (quoted '\'' key) + after.byteLength = header.byteLength := by
  rcases Option.or_eq_some_iff.mp found with single | ⟨_, double⟩
  · exact Text.slice_after_find single
  · rw [quoted_byte_length '\'' key rfl, ← quoted_byte_length '"' key rfl]
    exact Text.slice_after_find double

theorem usize_add_of_lt {left right : Nat} (fits : left + right < usizeLimit) :
    usizeAdd left right = .ok (left + right) := if_pos fits

theorem sliced_some {Result : Type} {slice : Option Result} {result : Result}
    (exists_ : slice = some result) : sliced slice = .ok result := by
  rw [exists_]
  rfl

theorem value_of_returns (fits : Addressable header) (key : String) : ∃ found, valueOf header key = .ok found ∧
      ∀ value, found = some value → value.byteLength ≤ header.byteLength := by
  have limits : isizeLimit < usizeLimit := by decide
  unfold Addressable at fits
  unfold valueOf
  split
  · exact ⟨none, rfl, fun _ absent => by cases absent⟩
  · rename_i keyPos found
    obtain ⟨after, isAfter, length⟩ := key_found found
    rw [usize_add_of_lt (by omega), ok_bind, sliced_some isAfter, ok_bind]
    split
    · exact ⟨none, rfl, fun _ absent => by cases absent⟩
    · rename_i colonPos colon
      obtain ⟨value, isValue, rest⟩ := Text.slice_after_find colon
      have colonLength : Text.byteLength [':'] = 1 := rfl
      rw [colonLength] at isValue rest
      rw [usize_add_of_lt (by omega), ok_bind, sliced_some isValue]
      refine ⟨_, rfl, ?_⟩
      rintro _ ⟨⟩
      have trimmed := trim_start_byte_length value
      omega

theorem parse_bool_value_faultless (fits : Addressable header) (key : String) :
    Faultless (parseBoolValue header key) := by
  obtain ⟨found, returned, -⟩ := value_of_returns fits key
  unfold parseBoolValue
  rw [returned, ok_bind]
  split
  · exact faultless_pure none
  · split
    · exact faultless_pure _
    · split <;> exact faultless_pure _

theorem slice_from_char (char : Char) (rest : Text) : Text.sliceFrom (char :: rest) char.utf8Size = some rest := by
  have from_ := Text.slice_from_append [char] rest
  simpa using from_

theorem parse_str_value_faultless (fits : Addressable header) (key : String) :
    Faultless (parseStrValue header key) := by
  obtain ⟨found, returned, -⟩ := value_of_returns fits key
  unfold parseStrValue
  rw [returned, ok_bind]
  split
  · exact faultless_pure none
  · exact faultless_pure none
  · rename_i quote rest
    split
    · exact faultless_pure none
    · rename_i isQuote
      have oneByte : quote.utf8Size = 1 := by
        rcases Decidable.not_and_iff_or_not.mp isQuote with single | double
        · rw [Decidable.not_not.mp single]
          rfl
        · rw [Decidable.not_not.mp double]
          rfl
      have unquoted : Text.sliceFrom (quote :: rest) 1 = some rest := by
        rw [← oneByte]
        exact slice_from_char quote rest
      rw [sliced_some unquoted, ok_bind]
      split
      · exact faultless_pure none
      · rename_i stop found
        obtain ⟨inner, isInner⟩ := Text.slice_before_find found
        rw [sliced_some isInner]
        exact faultless_ok _

/-- The first closing parenthesis stands behind the first opening one. -/
def ParensOrdered (value : Text) : Prop :=
  ∀ start stop, Text.find ['('] value = some start → Text.find [')'] value = some stop →
    start < stop

theorem paren_slice_iff {value : Text} {start stop : Nat}
    (opening : Text.find ['('] value = some start) (closing : Text.find [')'] value = some stop) :
    (Text.slice value (start + 1) stop).isSome ↔ start < stop := by
  constructor
  · intro exists_
    by_contra backwards
    rw [Text.slice, if_neg (by omega)] at exists_
    cases exists_
  · intro ordered
    obtain ⟨inner, isInner⟩ := Text.slice_between opening closing ordered
    exact Option.isSome_iff_exists.mpr ⟨inner, isInner⟩

theorem parse_shape_faultless_iff (fits : Addressable header) : Faultless (parseShape header) ↔
      ∀ value, valueOf header "shape" = .ok (some value) → ParensOrdered value := by
  have limits : isizeLimit < usizeLimit := by decide
  unfold Addressable at fits
  obtain ⟨found, returned, inside⟩ := value_of_returns fits "shape"
  unfold parseShape
  rw [returned, ok_bind]
  cases found with
  | none => exact iff_of_true (faultless_pure none) (fun _ same => by cases same)
  | some value =>
    have shorter := inside value rfl
    have only : (∀ other, (.ok (some value) : Parse (Option Text)) = .ok (some other) →
        ParensOrdered other) ↔ ParensOrdered value :=
      ⟨fun all => all value rfl, by rintro ordered _ ⟨⟩; exact ordered⟩
    rw [only]
    dsimp only
    split
    · rename_i start stop opening closing
      obtain ⟨_, _, length⟩ := Text.slice_after_find opening
      have oneByte : Text.byteLength ['('] = 1 := rfl
      rw [usize_add_of_lt (by omega), ok_bind, faultless_bind, faultless_sliced,
        paren_slice_iff opening closing]
      constructor
      · rintro ⟨ordered, -⟩ _ _ isStart isStop
        rw [opening] at isStart
        rw [closing] at isStop
        cases isStart
        cases isStop
        exact ordered
      · exact fun ordered => ⟨ordered start stop opening closing, fun _ _ => faultless_pure _⟩
    · rename_i missing
      exact iff_of_true (faultless_pure none) fun start stop opening closing =>
        (missing start stop opening closing).elim

theorem parse_descr_faultless (descr : Text) : Faultless (parseDescr descr) := by
  unfold parseDescr
  split
  · exact faultless_ok _
  · split
    · exact faultless_fail _
    · split
      · exact faultless_fail _
      · refine faultless_bind.mpr ⟨faultless_ok_or _ _, fun _ _ => ?_⟩
        split
        · exact faultless_fail _
        · refine faultless_bind.mpr ⟨faultless_ok_or _ _, fun _ _ => ?_⟩
          exact faultless_bind.mpr ⟨faultless_ok_or _ _, fun _ _ => faultless_pure _⟩

/-- The header names a type and an order, and a shape whose parentheses are in
order, as far as each is reached. -/
def ShapeReadable (header : Text) : Prop :=
  ∀ descr fortran value, parseStrValue header "descr" = .ok (some descr) →
    parseBoolValue header "fortran_order" = .ok (some fortran) →
    valueOf header "shape" = .ok (some value) → ParensOrdered value

theorem ok_or_eq_ok {Result : Type} {message : String} {found : Option Result} {result : Result} :
    okOr message found = .ok result ↔ found = some result := by
  cases found with
  | none => exact iff_of_false (fun same => by cases same) (fun same => by cases same)
  | some found => simp [okOr]

theorem parse_fields_faultless_iff (fits : Addressable header) (offset : Nat) :
    Faultless (parseFields header offset) ↔ ShapeReadable header := by
  unfold parseFields ShapeReadable
  simp only [faultless_bind, faultless_ok_or, parse_str_value_faultless fits,
    parse_bool_value_faultless fits, parse_shape_faultless_iff fits, parse_descr_faultless,
    faultless_pure, true_and, and_true, implies_true, ok_or_eq_ok]
  constructor
  · intro all descr fortran value isDescr isFortran
    exact all _ isDescr _ rfl _ isFortran _ rfl value
  · rintro ordered _ isDescr descr rfl _ isFortran fortran rfl value
    exact ordered descr fortran value isDescr isFortran

section Buffers

variable {utf8Error : List UInt8 → String} {buffer : List UInt8}

theorem from_utf8_eq_ok {bytes : List UInt8} {text : Text} :
    fromUtf8 utf8Error bytes = .ok text ↔ bytes = text.flatMap String.utf8EncodeChar := by
  have bytes_eq (other : List UInt8) : other.toByteArray = ⟨other.toArray⟩ := by
    ext1
    simp
  unfold fromUtf8 String.fromUTF8?
  constructor
  · intro decoded
    split at decoded
    · rename_i string isString
      split at isString
      · rename_i isValid
        cases isString
        cases decoded
        have same := String.utf8Encode_toList (b := String.fromUTF8 ⟨bytes.toArray⟩ isValid)
        rw [List.utf8Encode, bytes_eq] at same
        exact (congrArg (fun array => array.data.toList) same).symm
      · cases isString
    · cases decoded
  · rintro rfl
    have isValid : ByteArray.IsValidUTF8 ⟨(text.flatMap String.utf8EncodeChar).toArray⟩ :=
      bytes_eq _ ▸ ByteArray.isValidUTF8_utf8Encode
    have decoded : String.fromUTF8 ⟨(text.flatMap String.utf8EncodeChar).toArray⟩ isValid =
        String.ofList text := by
      rw [← String.toByteArray_inj, String.toByteArray_ofList, List.utf8Encode, bytes_eq]
      rfl
    rw [dif_pos isValid, decoded]
    simp

theorem from_utf8_length {bytes : List UInt8} {text : Text}
    (decoded : fromUtf8 utf8Error bytes = .ok text) : text.byteLength = bytes.length := by
  rw [from_utf8_eq_ok.mp decoded, List.length_flatMap]
  simp [Text.byteLength]

theorem get_range_length {start stop : Nat} {range : List UInt8}
    (isRange : getRange buffer start stop = some range) :
    start ≤ stop ∧ stop ≤ buffer.length ∧ range.length = stop - start := by
  unfold getRange at isRange
  split at isRange
  · rename_i inside
    cases isRange
    refine ⟨inside.1, inside.2, ?_⟩
    rw [List.length_drop, List.length_take, Nat.min_eq_left inside.2]
  · cases isRange

theorem header_place_faultless : Faultless (headerPlace buffer) := by
  unfold headerPlace
  dsimp only
  split
  · exact faultless_ok _
  · split
    · split
      · exact faultless_fail _
      · exact faultless_ok _
    · exact faultless_fail _

theorem from_utf8_faultless (bytes : List UInt8) : Faultless (fromUtf8 utf8Error bytes) := by
  unfold fromUtf8
  split
  · exact faultless_ok _
  · exact faultless_fail _

theorem header_text_faultless : Faultless (headerText utf8Error buffer) := by
  unfold headerText
  simp only [faultless_bind, faultless_ensure, faultless_ok_or, header_place_faultless,
    from_utf8_faultless, faultless_pure, implies_true, and_self]

theorem header_text_inside {offset : Nat} (returned : headerText utf8Error buffer = .ok (header, offset)) :
    header.byteLength ≤ buffer.length ∧ offset ≤ buffer.length := by
  unfold headerText at returned
  obtain ⟨_, _, returned⟩ := bind_ok returned
  obtain ⟨_, _, returned⟩ := bind_ok returned
  obtain ⟨⟨headerLen, headerStart⟩, _, returned⟩ := bind_ok returned
  obtain ⟨headerEnd, _, returned⟩ := bind_ok returned
  obtain ⟨headerBytes, isRange, returned⟩ := bind_ok returned
  obtain ⟨text, decoded, returned⟩ := bind_ok returned
  cases returned
  have length := get_range_length (ok_or_eq_ok.mp isRange)
  have same := from_utf8_length decoded
  omega

end Buffers

end Panoptikon.Embedding
