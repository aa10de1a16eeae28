import Panoptikon.Media.AvifFiles

/-!
# Image sequences that are cut off

The walk takes the end of the bytes for the end of the boxes, and a box that goes to the
end of the file for one that goes to the cut. The length stands in the movie header alone.
-/

namespace Panoptikon.Media

open Foundation

structure Brand where
  letters : List UInt8
  four : letters.length = 4

structure FileType where
  major : Brand
  minor : List UInt8
  minorFour : minor.length = 4
  compatible : List Brand

namespace FileType

def body (fileType : FileType) : List UInt8 :=
  fileType.major.letters ++ (fileType.minor ++ fileType.compatible.flatMap Brand.letters)

/-- The brand of an image sequence, major or compatible. -/
def isSequence (fileType : FileType) : Bool :=
  fileType.major.letters = ascii "avis" || fileType.compatible.any fun brand => brand.letters = ascii "avis"

end FileType

theorem brands_of_chunks (brands : List Brand) :
    Chunks.chunks 4 (brands.flatMap Brand.letters) = brands.map Brand.letters := by
  induction brands with
  | nil => rfl
  | cons brand later ih =>
    rw [List.flatMap_cons, Chunks.chunks_append (by decide) brand.four, ih, List.map_cons]

theorem ftyp_has_avis (fileType : FileType) : ftypHasAvis fileType.body = .ok fileType.isSequence := by
  have start := Ahead.start fileType.body
  have inside := start.length_eq
  have long : fileType.body.length = 4 + (4 + (fileType.compatible.flatMap Brand.letters).length) := by
    rw [FileType.body, List.length_append, List.length_append, fileType.major.four, fileType.minorFour]
  have compatible : Ahead fileType.body 8 (fileType.compatible.flatMap Brand.letters ++ []) := by
    rw [List.append_nil]
    exact (start.pass_of_length fileType.major.four).pass_of_length fileType.minorFour
  rw [ftypHasAvis, if_neg (by omega), start.sliced_at (by rw [fileType.major.four])]
  simp only [bind, Except.bind]
  rw [compatible.sliced_at (by omega)]
  simp only
  rw [brands_of_chunks, List.any_map]
  refine congrArg Except.ok ?_
  rw [FileType.isSequence, Bool.eq_iff_iff, decide_eq_true_iff, Bool.or_eq_true, decide_eq_true_iff]
  rfl

/-- What a box behind the file type holds: the movie, or what the length does not depend on. -/
inductive AvifContent where
  | movie (moov : Movie)
  | other (letters : List UInt8) (four : letters.length = 4) (noFileType : letters ≠ ascii "ftyp")
      (noMovie : letters ≠ ascii "moov") (bytes : List UInt8)

namespace AvifContent

def letters : AvifContent → List UInt8
  | .movie _ => ascii "moov"
  | .other letters .. => letters

def bytes : AvifContent → List UInt8
  | .movie moov => moov.body
  | .other _ _ _ _ bytes => bytes

def isMovie : AvifContent → Bool
  | .movie _ => true
  | .other .. => false

theorem four (content : AvifContent) : content.letters.length = 4 := by
  cases content with
  | movie moov => exact (by decide : (ascii "moov").length = 4)
  | other letters four noFileType noMovie bytes => exact four

/-- What so many bytes of the content leave of the length. -/
def secondsAfter (content : AvifContent) (left : Nat) (seconds : Option ℚ) : Option ℚ :=
  match content with
  | .movie moov => moov.secondsLeft left
  | .other .. => seconds

end AvifContent

structure AvifBox where
  form : BoxForm
  content : AvifContent
  fits : form.Fits content.bytes.length

namespace AvifBox

def encode (box : AvifBox) : List UInt8 := encodeBox box.form box.content.letters box.content.bytes

/-- A box that goes to the end of the bytes has no end to miss. -/
def goesOn (box : AvifBox) (left : Nat) : Bool := box.form = .toEnd && 8 ≤ left

end AvifBox

/-- The boxes that a cut leaves, when it falls behind a box or into one that goes to the end. -/
def boxesLeft (count : Nat) (boxes : List AvifBox) : Option (List (AvifBox × Nat)) :=
  remains (fun box => box.encode.length) AvifBox.goesOn count boxes

def afterBox (timing : AvifTiming) (box : AvifBox × Nat) : AvifTiming :=
  { timing with seconds := box.1.content.secondsAfter (box.2 - box.1.form.headLength) timing.seconds }

theorem avif_box_content (timing : AvifTiming) (content : AvifContent) (left : Nat)
    (bounded : (content.bytes.take left).length < 2 ^ 63) :
    avifBox timing content.letters (content.bytes.take left) =
      .ok { timing with seconds := content.secondsAfter left timing.seconds } := by
  cases content with
  | movie moov =>
    have differ : ascii "moov" ≠ ascii "ftyp" := by decide
    have letters : (AvifContent.movie moov).letters = ascii "moov" := rfl
    have bytes : (AvifContent.movie moov).bytes = moov.body := rfl
    rw [bytes] at bounded ⊢
    rw [avifBox, letters, if_neg differ, if_pos rfl, mvhd_body_left moov left bounded]
    rfl
  | other letters four noFileType noMovie bytes =>
    rw [avifBox]
    exact (if_neg noFileType).trans (if_neg noMovie)

variable {bytes rest : List UInt8}

theorem parse_avif_step {place : Nat} (bounded : bytes.length < 2 ^ 63) (box : AvifBox)
    {left : Nat} (fits : box.form.Fits (box.content.bytes.take left).length)
    (ahead : Ahead bytes place (encodeBox box.form box.content.letters (box.content.bytes.take left) ++ rest))
    (closed : box.form = .toEnd → rest = []) (fuel : Nat) (timing : AvifTiming) :
    parseAvifBoxes bytes (fuel + 1) place timing =
      parseAvifBoxes bytes fuel
        (place + (encodeBox box.form box.content.letters (box.content.bytes.take left)).length)
        { timing with seconds := box.content.secondsAfter left timing.seconds } := by
  obtain ⟨inside, met⟩ := box_met bounded box.content.four fits ahead closed fun found letters =>
    avifBox timing letters found.1 >>= parseAvifBoxes bytes fuel found.2
  have whole := ahead.length_eq
  have long := encode_box_length box.form box.content.four (box.content.bytes.take left)
  rw [List.length_append] at whole
  rw [parseAvifBoxes, if_pos inside]
  refine met.trans ?_
  rw [avif_box_content timing box.content left (by omega)]
  rfl

variable {bytes : List UInt8}

theorem avif_ended {place fuel : Nat} (ended : bytes.length ≤ place) (fueled : 0 < fuel)
    (timing : AvifTiming) : parseAvifBoxes bytes fuel place timing = .ok timing := by
  obtain ⟨more, rfl⟩ := Nat.exists_eq_add_of_lt fueled
  rw [Nat.zero_add, parseAvifBoxes, if_neg (by omega)]

theorem avif_short {bytes letters body : List UInt8} {form : BoxForm} {place left fuel : Nat}
    (bounded : bytes.length < 2 ^ 63) (four : letters.length = 4) (fits : form.Fits body.length)
    (ahead : Ahead bytes place ((encodeBox form letters body).take left)) (some : 0 < left)
    (short : left < (encodeBox form letters body).length) (closed : form = .toEnd → left < 8) (fueled : 0 < fuel)
    (timing : AvifTiming) : parseAvifBoxes bytes fuel place timing = .error .malformed := by
  have inside := ahead.length_eq
  rw [List.length_take, Nat.min_eq_left (Nat.le_of_lt short)] at inside
  obtain ⟨more, rfl⟩ := Nat.exists_eq_add_of_lt fueled
  rw [Nat.zero_add, parseAvifBoxes, if_pos (by omega), isobmff_box_short bounded four fits ahead short closed]
  rfl

theorem take_open {letters : List UInt8} (four : letters.length = 4) (body : List UInt8) {left : Nat}
    (headed : 8 ≤ left) :
    (encodeBox .toEnd letters body).take left = encodeBox .toEnd letters (body.take (left - 8)) :=
  take_behind (box_head_length .toEnd four body.length) body headed

section

variable (bounded : bytes.length < 2 ^ 63)

include bounded

theorem parse_whole_box {place : Nat} (box : AvifBox)
    (ahead : Ahead bytes place (box.encode ++ rest)) (closed : box.form = .toEnd → rest = []) (fuel : Nat)
    (timing : AvifTiming) : parseAvifBoxes bytes (fuel + 1) place timing =
      parseAvifBoxes bytes fuel (place + box.encode.length) (afterBox timing (box, box.encode.length)) := by
  have long : box.encode.length = box.form.headLength + box.content.bytes.length :=
    encode_box_length box.form box.content.four box.content.bytes
  have all : box.content.bytes.take box.content.bytes.length = box.content.bytes := List.take_length
  have fits := box.fits
  rw [AvifBox.encode, ← all] at ahead
  rw [← all] at fits
  rw [parse_avif_step bounded box fits ahead closed, afterBox, long, Nat.add_sub_cancel_left, all]
  rw [← long]
  rfl

theorem parse_open_box {place left : Nat} (box : AvifBox)
    (ahead : Ahead bytes place (box.encode.take left)) (goesOn : box.goesOn left = true) (fuel : Nat)
    (fueled : 0 < fuel) (timing : AvifTiming) :
    parseAvifBoxes bytes (fuel + 1) place timing = .ok (afterBox timing (box, left)) := by
  rw [AvifBox.goesOn, Bool.and_eq_true, decide_eq_true_iff, decide_eq_true_iff] at goesOn
  have fits : box.form.Fits (box.content.bytes.take (left - 8)).length := by
    rw [goesOn.1]
    trivial
  have part : box.encode.take left = encodeBox box.form box.content.letters (box.content.bytes.take (left - 8)) := by
    rw [AvifBox.encode, goesOn.1]
    exact take_open box.content.four box.content.bytes goesOn.2
  rw [part] at ahead
  have inside := ahead.length_eq
  rw [← List.append_nil (encodeBox _ _ _)] at ahead
  rw [parse_avif_step bounded box fits ahead fun _ => rfl, avif_ended (by omega) fueled, afterBox, goesOn.1]
  rfl

/-- Induction on the boxes: what is walked of a cut is walked to the end of the boxes that are left, or is
malformed. -/
theorem parse_cut_boxes (boxes : List AvifBox)
    (closed : ∀ box ∈ boxes.dropLast, box.form ≠ .toEnd) {count place fuel : Nat}
    (ahead : Ahead bytes place ((boxes.flatMap AvifBox.encode).take count)) (enough : bytes.length < place + fuel)
    (timing : AvifTiming) : parseAvifBoxes bytes fuel place timing =
      (boxesLeft count boxes).elim (.error .malformed) fun left => .ok (left.foldl afterBox timing) := by
  induction boxes generalizing count place fuel timing with
  | nil =>
    have inside := ahead.length_eq
    rw [List.flatMap_nil, List.take_nil, List.length_nil] at inside
    rw [avif_ended (by omega) (by omega)]
    cases count <;> rfl
  | cons box later ih =>
    rw [List.flatMap_cons] at ahead
    have inside := ahead.length_eq
    have long : box.encode.length = box.form.headLength + box.content.bytes.length :=
      encode_box_length box.form box.content.four box.content.bytes
    have eight := eight_le_head_length box.form
    cases count with
    | zero =>
      rw [List.take_zero, List.length_nil] at inside
      rw [avif_ended (by omega) (by omega)]
      rfl
    | succ count =>
      rw [boxesLeft, remains]
      obtain ⟨fuel, rfl⟩ : ∃ more, fuel = more + 1 := ⟨fuel - 1, by omega⟩
      by_cases whole : box.encode.length ≤ count + 1
      · rw [take_behind rfl _ whole] at ahead inside
        rw [List.length_append] at inside
        have rest := ahead.pass
        have isLast : box.form = .toEnd →
            (later.flatMap AvifBox.encode).take (count + 1 - box.encode.length) = [] := by
          intro isOpen
          cases later with
          | nil => exact List.take_nil
          | cons next rest => exact absurd isOpen (closed box List.mem_cons_self)
        have closedLater : ∀ box ∈ later.dropLast, box.form ≠ .toEnd := by
          intro other member
          cases later with
          | nil => cases member
          | cons next rest => exact closed other (List.mem_cons_of_mem box member)
        rw [parse_whole_box bounded box ahead isLast, if_pos whole, ih closedLater rest (by omega), boxesLeft]
        cases remains (fun box => box.encode.length) AvifBox.goesOn (count + 1 - box.encode.length) later <;> rfl
      · have short : count + 1 < box.encode.length := Nat.lt_of_not_le whole
        rw [take_within _ (Nat.le_of_lt short)] at ahead inside
        rw [List.length_take, Nat.min_eq_left (Nat.le_of_lt short)] at inside
        rw [if_neg whole]
        cases goesOn : box.goesOn (count + 1) with
        | true =>
          rw [parse_open_box bounded box ahead goesOn fuel (by omega)]
          rfl
        | false =>
          rw [AvifBox.goesOn, Bool.and_eq_false_iff, decide_eq_false_iff_not, decide_eq_false_iff_not] at goesOn
          have isClosed : box.form = .toEnd → count + 1 < 8 := by
            intro isOpen
            rcases goesOn with other | headless
            · exact absurd isOpen other
            · omega
          rw [avif_short bounded box.content.four box.fits ahead (Nat.succ_pos count) short isClosed
            (Nat.succ_pos fuel)]
          rfl

end

/-- So much of the box that its movie header is there, and takes time. -/
def TakesTime (box : AvifBox × Nat) : Prop :=
  ∃ moov, box.1.content = .movie moov ∧ moov.headerEnd ≤ box.2 - box.1.form.headLength ∧ moov.header.Plays

def isMovieBox (box : AvifBox × Nat) : Bool := box.1.content.isMovie

variable {box : AvifBox × Nat}

theorem takes_time_movie (takes : TakesTime box) : isMovieBox box = true := by
  obtain ⟨moov, isMovie, -, -⟩ := takes
  rw [isMovieBox, isMovie]
  rfl

theorem after_other (other : isMovieBox box = false) (timing : AvifTiming) : afterBox timing box = timing := by
  rw [isMovieBox] at other
  rw [afterBox]
  cases isContent : box.1.content with
  | movie moov =>
    rw [isContent] at other
    cases other
  | other letters four noFileType noMovie bytes => rfl

variable (left : List (AvifBox × Nat))

theorem after_others (timing : AvifTiming)
    (others : left.countP isMovieBox = 0) : left.foldl afterBox timing = timing := by
  induction left generalizing timing with
  | nil => rfl
  | cons box later ih =>
    have none := List.countP_eq_zero.mp others
    have other := Bool.eq_false_iff.mpr (none box List.mem_cons_self)
    rw [List.foldl_cons, after_other other]
    exact ih timing (List.countP_eq_zero.mpr fun next member => none next (List.mem_cons_of_mem box member))

theorem after_has_avis (timing : AvifTiming) : (left.foldl afterBox timing).hasAvis = timing.hasAvis := by
  induction left generalizing timing with
  | nil => rfl
  | cons box later ih => exact ih _

theorem after_movie_still_iff (isMovie : isMovieBox box = true) (timing : AvifTiming) :
    (afterBox timing box).seconds.getD 0 = 0 ↔ ¬TakesTime box := by
  rw [isMovieBox] at isMovie
  cases isContent : box.1.content with
  | movie moov =>
    have told : (afterBox timing box).seconds = moov.secondsLeft (box.2 - box.1.form.headLength) := by
      rw [afterBox, isContent]
      rfl
    have takes : TakesTime box ↔ moov.headerEnd ≤ box.2 - box.1.form.headLength ∧ moov.header.Plays := by
      constructor
      · rintro ⟨other, same, there, plays⟩
        rw [isContent] at same
        cases same
        exact ⟨there, plays⟩
      · exact fun takes => ⟨moov, isContent, takes⟩
    rw [told, takes, Movie.secondsLeft]
    by_cases there : moov.headerEnd ≤ box.2 - box.1.form.headLength
    · rw [if_pos there, moov.header.seconds_still_iff, and_iff_right there]
    · rw [if_neg there]
      exact iff_of_true rfl fun takes => there takes.1
  | other letters four noFileType noMovie bytes =>
    rw [isContent] at isMovie
    cases isMovie

/-- Induction on the boxes up to the movie, behind which no other one stands. -/
theorem after_boxes_still_iff (oneMovie : left.countP isMovieBox ≤ 1) (flag : Bool) :
    (left.foldl afterBox ⟨flag, none⟩).seconds.getD 0 = 0 ↔ ¬∃ box ∈ left, TakesTime box := by
  induction left with
  | nil =>
    refine iff_of_true rfl ?_
    rintro ⟨box, ⟨⟩, -⟩
  | cons box later ih =>
    rw [List.foldl_cons]
    cases isMovie : isMovieBox box with
    | true =>
      have others : later.countP isMovieBox = 0 := by
        rw [List.countP_cons_of_pos isMovie] at oneMovie
        omega
      rw [after_others later _ others, after_movie_still_iff isMovie]
      constructor
      · rintro still ⟨found, member, takes⟩
        rcases List.mem_cons.mp member with same | member
        · exact still (same ▸ takes)
        · exact List.countP_eq_zero.mp others found member (takes_time_movie takes)
      · exact fun still takes => still ⟨box, List.mem_cons_self, takes⟩
    | false =>
      rw [List.countP_cons_of_neg (by rw [isMovie]; exact Bool.false_ne_true)] at oneMovie
      rw [after_other isMovie, ih oneMovie]
      constructor
      · rintro still ⟨found, member, takes⟩
        rcases List.mem_cons.mp member with same | member
        · have absurdly := takes_time_movie takes
          rw [same, isMovie] at absurdly
          cases absurdly
        · exact still ⟨found, member, takes⟩
      · rintro still ⟨found, member, takes⟩
        exact still ⟨found, List.mem_cons_of_mem box member, takes⟩

def encodeAvif (form : BoxForm) (fileType : FileType) (boxes : List AvifBox) : List UInt8 :=
  encodeBox form (ascii "ftyp") fileType.body ++ boxes.flatMap AvifBox.encode

/-- A file type, and boxes of which one at most is the movie. -/
structure Avif where
  fileType : FileType
  form : BoxForm
  closedType : form ≠ .toEnd
  fitsType : form.Fits fileType.body.length
  boxes : List AvifBox
  closed : ∀ box ∈ boxes.dropLast, box.form ≠ .toEnd
  oneMovie : boxes.countP (fun box => box.content.isMovie) ≤ 1
  bounded : (encodeAvif form fileType boxes).length < 2 ^ 63

namespace Avif

def encode (avif : Avif) : Slice := ⟨encodeAvif avif.form avif.fileType avif.boxes, avif.bounded⟩

/-- The bytes of the file type. -/
def typeLength (avif : Avif) : Nat := (encodeBox avif.form (ascii "ftyp") avif.fileType.body).length

end Avif

theorem ftyp_letters : (ascii "ftyp").length = 4 := by decide

theorem parse_file_type (bounded : bytes.length < 2 ^ 63) (avif : Avif)
    (ahead : Ahead bytes 0 (encodeBox avif.form (ascii "ftyp") avif.fileType.body ++ rest)) (fuel : Nat) :
    parseAvifBoxes bytes (fuel + 1) 0 ⟨false, none⟩ =
      parseAvifBoxes bytes fuel avif.typeLength ⟨avif.fileType.isSequence, none⟩ := by
  have read : avifBox ⟨false, none⟩ (ascii "ftyp") avif.fileType.body =
      .ok ⟨avif.fileType.isSequence, none⟩ := by
    rw [avifBox, if_pos rfl, ftyp_has_avis]
    rfl
  obtain ⟨inside, met⟩ := box_met bounded ftyp_letters avif.fitsType ahead
    (fun isOpen => absurd isOpen avif.closedType) fun found letters =>
      avifBox ⟨false, none⟩ letters found.1 >>= parseAvifBoxes bytes fuel found.2
  rw [parseAvifBoxes, if_pos inside]
  refine met.trans ?_
  rw [read, Nat.zero_add]
  rfl

theorem cut_in_type_still (avif : Avif) {count : Nat} (proper : count < avif.encode.list.length)
    (inType : count < avif.typeLength) : avifAnimationSeconds (avif.encode.cut count) = .ok 0 := by
  have length := Slice.cut_length proper
  have bounded := (avif.encode.cut count).bounded
  have ahead : Ahead (avif.encode.cut count).list 0
      ((encodeBox avif.form (ascii "ftyp") avif.fileType.body).take count) := by
    have start := Ahead.start (avif.encode.cut count).list
    have isCut : (avif.encode.cut count).list = _ := take_within (avif.boxes.flatMap AvifBox.encode) (Nat.le_of_lt inType)
    nth_rewrite 2 [isCut] at start
    exact start
  rw [avifAnimationSeconds, parseAvif]
  cases count with
  | zero =>
    rw [avif_ended (by omega) (by omega)]
    rfl
  | succ count =>
    rw [avif_short bounded ftyp_letters avif.fitsType ahead (Nat.succ_pos count) inType
      (fun isOpen => absurd isOpen avif.closedType) (by omega)]
    rfl

/-- What is measured of the first bytes of an image sequence is what its movie header tells, if it is there. -/
theorem avif_cut_still_iff (avif : Avif) {count : Nat} (proper : count < avif.encode.list.length) :
    avifAnimationSeconds (avif.encode.cut count) = .ok 0 ↔
      ∀ left ∈ boxesLeft (count - avif.typeLength) avif.boxes,
        ¬(avif.fileType.isSequence = true ∧ ∃ box ∈ left, TakesTime box) := by
  by_cases inType : count < avif.typeLength
  · refine iff_of_true (cut_in_type_still avif proper inType) ?_
    have nothing : boxesLeft (count - avif.typeLength) avif.boxes = some [] := by
      rw [Nat.sub_eq_zero_of_le (Nat.le_of_lt inType)]
      cases avif.boxes <;> rfl
    rw [nothing]
    rintro left ⟨⟩ ⟨-, box, ⟨⟩, -⟩
  · have behind : avif.typeLength ≤ count := Nat.le_of_not_lt inType
    have bounded := (avif.encode.cut count).bounded
    have ahead : Ahead (avif.encode.cut count).list 0
        (encodeBox avif.form (ascii "ftyp") avif.fileType.body ++
          (avif.boxes.flatMap AvifBox.encode).take (count - avif.typeLength)) := by
      have start := Ahead.start (avif.encode.cut count).list
      have isCut : (avif.encode.cut count).list = _ := take_behind rfl (avif.boxes.flatMap AvifBox.encode) behind
      nth_rewrite 2 [isCut] at start
      exact start
    have boxes := ahead.pass
    have long := encode_box_length avif.form ftyp_letters avif.fileType.body
    have eight := eight_le_head_length avif.form
    rw [Nat.zero_add] at boxes
    change Ahead _ avif.typeLength _ at boxes
    change avif.typeLength = _ at long
    rw [avifAnimationSeconds, parseAvif, parse_file_type bounded avif ahead,
      parse_cut_boxes bounded avif.boxes avif.closed boxes (by omega)]
    cases isLeft : boxesLeft (count - avif.typeLength) avif.boxes with
    | none =>
      refine iff_of_true rfl ?_
      rintro left ⟨⟩
    | some left =>
      have oneMovie : left.countP isMovieBox ≤ 1 := by
        have shorter := (remains_opening _ _ isLeft).sublist.countP_le (p := fun box => box.content.isMovie)
        rw [List.countP_map] at shorter
        exact Nat.le_trans shorter avif.oneMovie
      show Except.ok (AvifTiming.length _) = Except.ok 0 ↔ _
      rw [Except.ok.injEq, AvifTiming.length, after_has_avis]
      cases avif.fileType.isSequence with
      | false =>
        refine iff_of_true rfl ?_
        rintro other ⟨⟩ ⟨absurdly, -⟩
        cases absurdly
      | true =>
        rw [if_pos rfl, after_boxes_still_iff left oneMovie]
        constructor
        · rintro still other ⟨⟩ ⟨-, takes⟩
          exact still takes
        · exact fun still takes => still left rfl ⟨rfl, takes⟩

end Panoptikon.Media
