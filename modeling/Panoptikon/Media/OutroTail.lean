import Panoptikon.Media.Outro

/-!
# Scanning the tail

`scan_tail` and `read_frames` read a stream in whatever parts it arrives. The height of
its frames comes over a channel at some moment, or from the stored dimensions at the end.
-/

namespace Panoptikon.Media.Outro

open Foundation

/-- `HEIGHT_WAIT_CAP` -/
def heightWaitCap : Nat := 8 * 1024 * 1024

/-- `scaled_height`; the cast of the rounded height saturates. -/
def scaledHeight (sourceWidth sourceHeight : Nat) : Option Nat :=
  if sourceWidth = 0 ∨ sourceHeight = 0 then none
  else
    let rounded := (sourceHeight * width + sourceWidth) / (2 * sourceWidth) * 2
    if rounded < 2 then none else some (min rounded (2 ^ 32 - 1))

def frameLen (height : Nat) : Nat := height * width * 3

/-- The loop over the candidates; two that differ are ambiguous. -/
def accept (received : Nat) : Option Nat → List Nat → Option Nat
  | accepted, [] => accepted
  | accepted, candidate :: later =>
      if frameLen candidate = 0 ∨ received % frameLen candidate ≠ 0 then accept received accepted later
      else if accepted.any fun existing => existing ≠ candidate then none
      else accept received (some candidate) later

def corroboratedHeight (sourceDims : Option (Nat × Nat)) (received : Nat) : Option Nat :=
  match sourceDims with
  | none => none
  | some (sourceWidth, sourceHeight) =>
      if received = 0 then none
      else accept received none
        ((scaledHeight sourceWidth sourceHeight).toList ++ (scaledHeight sourceHeight sourceWidth).toList)

/-- One call of `read`: some bytes and what a poll of the height would find behind it, or no bytes. -/
inductive ReadResult where
  | data (first : UInt8) (rest : List UInt8) (polled : Option Nat)
  | interrupted
  | failed
deriving DecidableEq

structure Scan where
  pending : List UInt8
  card : List Bool
  lastFrame : List UInt8
  frameLen : Nat
  overflowed : Bool

namespace Scan

def start : Scan := ⟨[], [], [], 0, false⟩

def push (scan : Scan) (frame : List UInt8) : Scan :=
  { scan with card := scan.card ++ [frameIsCard frame], lastFrame := frame }

/-- Drains whole frames out of `pending`; no caller asks for frames of no bytes. -/
def consumeFrames (scan : Scan) : Scan :=
  if _whole : 0 < scan.frameLen ∧ scan.frameLen ≤ scan.pending.length then
    let frame := scan.pending.take scan.frameLen
    ({ scan with pending := scan.pending.drop scan.frameLen }.push frame).consumeFrames
  else scan
termination_by scan.pending.length
decreasing_by
  simp only [push, List.length_drop]
  omega

def setHeight (scan : Scan) (height : Nat) : Scan := { scan with frameLen := Outro.frameLen height }

/-- The height is asked for as long as it is not known. -/
def learn (scan : Scan) (polled : Option Nat) : Scan :=
  if scan.frameLen = 0 then
    match polled with
    | some height => scan.setHeight height
    | none => scan
  else scan

def buffer (scan : Scan) (chunk : List UInt8) : Scan := { scan with pending := scan.pending ++ chunk }

/-- Nothing may grow with the file while the height is unknown. -/
def accumulate (scan : Scan) (chunk : List UInt8) : Scan :=
  if scan.overflowed then scan
  else if scan.frameLen = 0 then
    if heightWaitCap < (scan.buffer chunk).pending.length then { scan with overflowed := true, pending := [] }
    else scan.buffer chunk
  else (scan.buffer chunk).consumeFrames

/-- What one read does. -/
def receive (scan : Scan) (chunk : List UInt8) (polled : Option Nat) : Scan :=
  (scan.learn polled).accumulate chunk

/-- The loop to the end of the stream; the flag says that a read has failed. -/
def readAll : Scan → List ReadResult → Scan × Bool
  | scan, [] => (scan, false)
  | scan, .data first rest polled :: later => (scan.receive (first :: rest) polled).readAll later
  | scan, .interrupted :: later => scan.readAll later
  | scan, .failed :: _ => (scan, true)

/-- At the end a late report of the height counts, or the stored dimensions. -/
def settleHeight (scan : Scan) (late : Option Nat) (sourceDims : Option (Nat × Nat)) : Scan :=
  if scan.frameLen = 0 ∧ scan.overflowed = false then
    match late.orElse fun _ => corroboratedHeight sourceDims scan.pending.length with
    | some height => (scan.setHeight height).consumeFrames
    | none => scan
  else scan

end Scan

inductive DecodeFault where
  | reading
  | exited (stderr : String)
  | overflowed
  | ambiguousGeometry (received : Nat) (sourceWidth sourceHeight : Nat)
  | noGeometry
  | partialFrame (trailing : Nat)
  | noFrames

inductive OutroVerdict where
  | none (reason : RejectReason)
  | tiktokCard (kSeconds : ℚ)

/-- The faults in the order of the source, and else the rules. -/
def Scan.verdict (scan : Scan) (sourceDims : Option (Nat × Nat)) (exit : Except String Unit) :
    Except DecodeFault OutroVerdict :=
  match exit with
  | .error stderr => .error (.exited stderr)
  | .ok () =>
      if scan.overflowed then .error .overflowed
      else if scan.frameLen = 0 then
        match sourceDims with
        | some (sourceWidth, sourceHeight) =>
            .error (.ambiguousGeometry scan.pending.length sourceWidth sourceHeight)
        | none => .error .noGeometry
      else if !scan.pending.isEmpty then .error (.partialFrame scan.pending.length)
      else if scan.card.isEmpty then .error .noFrames
      else
        match verdictFromTail scan.card scan.lastFrame with
        | .ok kSeconds => .ok (.tiktokCard kSeconds)
        | .error reason => .ok (.none reason)

/-- `ffmpeg` exits by itself when its output is read to the end. -/
def scanTail (reads : List ReadResult) (late : Option Nat) (sourceDims : Option (Nat × Nat))
    (exit : Except String Unit) : Except DecodeFault OutroVerdict :=
  let (scan, failed) := Scan.start.readAll reads
  if failed then .error .reading
  else (scan.settleHeight late sourceDims).verdict sourceDims exit

def received : List ReadResult → List UInt8
  | [] => []
  | .data first rest _ :: later => first :: rest ++ received later
  | .interrupted :: later => received later
  | .failed :: later => received later

/-- The whole stream cut into frames at once. -/
def wholeScan (height : Nat) (stream : List UInt8) : Scan where
  pending := Chunks.rest (frameLen height) stream
  card := (Chunks.chunks (frameLen height) stream).map frameIsCard
  lastFrame := (Chunks.chunks (frameLen height) stream).getLastD []
  frameLen := frameLen height
  overflowed := false

/-- No read fails, and the first height that is known, at the latest at the end, is the true one,
before more bytes than the cap have come in. -/
def KnownInTime (height : Nat) (late : Option Nat) (sourceDims : Option (Nat × Nat)) :
    Nat → List ReadResult → Prop
  | buffered, [] => (late.orElse fun _ => corroboratedHeight sourceDims buffered) = some height
  | buffered, .data first rest polled :: later =>
      match polled with
      | some known => known = height ∧ .failed ∉ later
      | none => buffered + (first :: rest).length ≤ heightWaitCap ∧
          KnownInTime height late sourceDims (buffered + (first :: rest).length) later
  | buffered, .interrupted :: later => KnownInTime height late sourceDims buffered later
  | _, .failed :: _ => False

variable {reads : List ReadResult}

namespace Scan

variable {height : Nat}

theorem frame_len_pos (positive : 0 < height) : 0 < Outro.frameLen height := by
  unfold Outro.frameLen width
  omega

theorem consume_frames_all (scan : Scan) (known : 0 < scan.frameLen) : scan.consumeFrames =
      { scan with
        pending := Chunks.rest scan.frameLen scan.pending
        card := scan.card ++ (Chunks.chunks scan.frameLen scan.pending).map frameIsCard
        lastFrame := (Chunks.chunks scan.frameLen scan.pending).getLastD scan.lastFrame } := by
  obtain ⟨pending, card, lastFrame, frameLen, overflowed⟩ := scan
  dsimp only at known ⊢
  induction pending using Chunks.chunks_induction known generalizing card lastFrame with
  | short pending short =>
    rw [consumeFrames, dif_neg (fun whole => Nat.not_lt.mpr whole.2 short), Chunks.chunks_short short,
      Chunks.rest_short short, List.map_nil, List.append_nil]
    rfl
  | chunk first later whole ih =>
    have enough : 0 < frameLen ∧ frameLen ≤ (first ++ later).length := by
      rw [List.length_append]
      omega
    have front : (first ++ later).take frameLen = first := by
      rw [← whole, List.take_left]
    have back : (first ++ later).drop frameLen = later := by
      rw [← whole, List.drop_left]
    rw [consumeFrames, dif_pos enough]
    dsimp only [push]
    rw [front, back, ih, Chunks.chunks_append known whole, Chunks.rest_append known whole, List.map_cons,
      List.append_assoc, List.singleton_append, List.getLastD_cons]

/-- Only bytes have come in so far. -/
def waiting (stream : List UInt8) : Scan := { start with pending := stream }

theorem set_height_consume (positive : 0 < height) (stream : List UInt8) :
    ((waiting stream).setHeight height).consumeFrames = wholeScan height stream := by
  rw [consume_frames_all _ (frame_len_pos positive)]
  rfl

theorem last_append {Item : Type} (first second : List Item) (fallback : Item) :
    (first ++ second).getLastD fallback = second.getLastD (first.getLastD fallback) := by
  induction first generalizing fallback with
  | nil => rfl
  | cons item later ih => rw [List.cons_append, List.getLastD_cons, List.getLastD_cons, ih]

theorem receive_known (positive : 0 < height) (stream chunk : List UInt8) (polled : Option Nat) :
    (wholeScan height stream).receive chunk polled = wholeScan height (stream ++ chunk) := by
  have known : (wholeScan height stream).frameLen ≠ 0 := Nat.ne_of_gt (frame_len_pos positive)
  obtain ⟨chunks, rest⟩ := Chunks.cut_in_parts (frame_len_pos positive) stream chunk
  have noOverflow : ¬(wholeScan height stream).overflowed = true := Bool.false_ne_true
  have learned : (wholeScan height stream).learn polled = wholeScan height stream := if_neg known
  have consumed := consume_frames_all ((wholeScan height stream).buffer chunk) (Nat.pos_of_ne_zero known)
  rw [receive, learned, accumulate, if_neg noOverflow, if_neg known, consumed]
  unfold buffer wholeScan
  dsimp only
  rw [chunks, rest, List.map_append, last_append]

theorem receive_waiting {stream chunk : List UInt8} (fits : stream.length + chunk.length ≤ heightWaitCap) :
    (waiting stream).receive chunk none = waiting (stream ++ chunk) := by
  have within : ¬heightWaitCap < ((waiting stream).buffer chunk).pending.length := by
    have length : ((waiting stream).buffer chunk).pending.length = stream.length + chunk.length :=
      List.length_append
    omega
  have unknown : (waiting stream).frameLen = 0 := rfl
  have noOverflow : ¬(waiting stream).overflowed = true := Bool.false_ne_true
  have learned : (waiting stream).learn none = waiting stream := if_pos unknown
  rw [receive, learned, accumulate, if_neg noOverflow, if_pos unknown, if_neg within]
  rfl

theorem receive_learns (positive : 0 < height) (stream chunk : List UInt8) :
    (waiting stream).receive chunk (some height) = wholeScan height (stream ++ chunk) := by
  have unknown : (waiting stream).frameLen = 0 := rfl
  have known : ((waiting stream).setHeight height).frameLen ≠ 0 := Nat.ne_of_gt (frame_len_pos positive)
  have noOverflow : ¬((waiting stream).setHeight height).overflowed = true := Bool.false_ne_true
  have learned : (waiting stream).learn (some height) = (waiting stream).setHeight height := if_pos unknown
  rw [← set_height_consume positive, receive, learned, accumulate, if_neg noOverflow, if_neg known]
  rfl

theorem read_all_known (positive : 0 < height) (noFailure : .failed ∉ reads) (stream : List UInt8) :
    (wholeScan height stream).readAll reads = (wholeScan height (stream ++ received reads), false) := by
  induction reads generalizing stream with
  | nil => rw [readAll, received, List.append_nil]
  | cons read later ih =>
    rw [List.mem_cons, not_or] at noFailure
    cases read with
    | data first rest polled =>
      rw [readAll, receive_known positive, ih noFailure.2, received, List.append_assoc]
    | interrupted => rw [readAll, ih noFailure.2, received]
    | failed => exact absurd rfl noFailure.1

variable {late : Option Nat} {sourceDims : Option (Nat × Nat)}

theorem settle_known (positive : 0 < height) (stream : List UInt8) :
    (wholeScan height stream).settleHeight late sourceDims = wholeScan height stream := by
  have known : (wholeScan height stream).frameLen ≠ 0 := Nat.ne_of_gt (frame_len_pos positive)
  rw [settleHeight, if_neg fun unknown => known unknown.1]

theorem read_all_in_time (positive : 0 < height) {stream : List UInt8}
    (inTime : KnownInTime height late sourceDims stream.length reads) : ((waiting stream).readAll reads).2 = false ∧
      ((waiting stream).readAll reads).1.settleHeight late sourceDims = wholeScan height (stream ++ received reads) := by
  induction reads generalizing stream with
  | nil =>
    rw [KnownInTime] at inTime
    refine ⟨rfl, ?_⟩
    have unknown : (waiting stream).frameLen = 0 ∧ (waiting stream).overflowed = false := ⟨rfl, rfl⟩
    have pending : (waiting stream).pending = stream := rfl
    rw [readAll, settleHeight, if_pos unknown, pending, inTime, received, List.append_nil]
    exact set_height_consume positive stream
  | cons read later ih =>
    cases read with
    | data first rest polled =>
      cases polled with
      | some known =>
        obtain ⟨rfl, noFailure⟩ := inTime
        rw [readAll, receive_learns positive, read_all_known positive noFailure, received, List.append_assoc]
        exact ⟨rfl, settle_known positive _⟩
      | none =>
        obtain ⟨fits, next⟩ := inTime
        rw [readAll, receive_waiting fits, received, ← List.append_assoc]
        apply ih
        rw [List.length_append]
        exact next
    | interrupted =>
      rw [readAll, received]
      exact ih inTime
    | failed => exact inTime.elim

end Scan

variable {height : Nat}

/-- The flags, the last frame and what is left over are those of the whole stream. -/
theorem scanned_whole (positive : 0 < height) {late : Option Nat} {sourceDims : Option (Nat × Nat)}
    (inTime : KnownInTime height late sourceDims 0 reads) :
    (Scan.start.readAll reads).2 = false ∧
      (Scan.start.readAll reads).1.settleHeight late sourceDims = wholeScan height (received reads) := by
  have waited : KnownInTime height late sourceDims ([] : List UInt8).length reads := inTime
  exact Scan.read_all_in_time positive waited

theorem scan_tail_whole (positive : 0 < height) {late : Option Nat} {sourceDims : Option (Nat × Nat)}
    (inTime : KnownInTime height late sourceDims 0 reads) (exit : Except String Unit) :
    scanTail reads late sourceDims exit = (wholeScan height (received reads)).verdict sourceDims exit := by
  obtain ⟨noFailure, whole⟩ := scanned_whole positive inTime
  rw [scanTail]
  dsimp only
  rw [noFailure, if_neg Bool.false_ne_true, whole]

theorem verdict_leftover {scan : Scan} (noOverflow : scan.overflowed = false) (known : scan.frameLen ≠ 0)
    (left : scan.pending.isEmpty = false) (sourceDims : Option (Nat × Nat)) :
    scan.verdict sourceDims (.ok ()) = .error (.partialFrame scan.pending.length) := by
  unfold Scan.verdict
  dsimp only
  rw [noOverflow, if_neg Bool.false_ne_true, if_neg known, left, Bool.not_false, if_pos rfl]

theorem verdict_partial (positive : 0 < height) {stream : List UInt8}
    (isPartial : stream.length % frameLen height ≠ 0) (sourceDims : Option (Nat × Nat)) (exit : Except String Unit) :
    ∃ fault, (wholeScan height stream).verdict sourceDims exit = .error fault := by
  cases exit with
  | error stderr => exact ⟨.exited stderr, rfl⟩
  | ok done =>
    have left : (Chunks.rest (frameLen height) stream).isEmpty = false := by
      rw [List.isEmpty_eq_false_iff]
      intro empty
      rw [← Chunks.rest_length, empty] at isPartial
      exact isPartial rfl
    have known : (wholeScan height stream).frameLen ≠ 0 := Nat.ne_of_gt (Scan.frame_len_pos positive)
    exact ⟨_, verdict_leftover rfl known left sourceDims⟩

/-- The buffer that fills up to a frame, the frames in their order, and what is left at the end
of the stream unless a read fails. -/
def readFrames (size : Nat) : List UInt8 → List ReadResult → List (List UInt8) × Option Nat
  | buffer, [] => ([], some buffer.length)
  | buffer, .data first rest _ :: later =>
      let filled := buffer ++ first :: rest
      if filled.length = size then
        let others := readFrames size [] later
        (filled :: others.1, others.2)
      else readFrames size filled later
  | buffer, .interrupted :: later => readFrames size buffer later
  | _, .failed :: _ => ([], none)

/-- No read returns more bytes than there is room for, and none fails. -/
def Fits (size : Nat) : Nat → List ReadResult → Prop
  | _, [] => True
  | filled, .data first rest _ :: later =>
      filled + (first :: rest).length ≤ size ∧
        Fits size (if filled + (first :: rest).length = size then 0 else filled + (first :: rest).length) later
  | filled, .interrupted :: later => Fits size filled later
  | _, .failed :: _ => False

theorem read_frames_whole {size : Nat} {buffer : List UInt8} (room : buffer.length < size)
    (fits : Fits size buffer.length reads) : readFrames size buffer reads =
      (Chunks.chunks size (buffer ++ received reads), some (Chunks.rest size (buffer ++ received reads)).length) := by
  have positive : 0 < size := Nat.lt_of_le_of_lt (Nat.zero_le _) room
  induction reads generalizing buffer with
  | nil => rw [readFrames, received, List.append_nil, Chunks.chunks_short room, Chunks.rest_short room]
  | cons read later ih =>
    cases read with
    | data first rest polled =>
      obtain ⟨within, next⟩ := fits
      have length : (buffer ++ first :: rest).length = buffer.length + (first :: rest).length := List.length_append
      rw [readFrames, received, ← List.append_assoc]
      dsimp only
      split
      · rename_i full
        rw [if_pos (length ▸ full)] at next
        have others : readFrames size [] later = _ := ih positive next
        rw [others, List.nil_append, Chunks.chunks_append positive full, Chunks.rest_append positive full]
      · rename_i short
        rw [if_neg (length ▸ short), ← length] at next
        apply ih _ next
        omega
    | interrupted =>
      rw [readFrames, received]
      exact ih room fits
    | failed => exact fits.elim

/-- However a stream arrives, and whenever the height of its frames becomes known, its frames are those
of the whole stream. A stream that ends inside a frame has no verdict. -/
theorem tail_by_frames (height : Nat) (positive : 0 < height) (late : Option Nat) (sourceDims : Option (Nat × Nat))
    (reads : List ReadResult) (inTime : KnownInTime height late sourceDims 0 reads) (exit : Except String Unit) :
    ((Scan.start.readAll reads).1.settleHeight late sourceDims).card =
        (Chunks.chunks (frameLen height) (received reads)).map frameIsCard ∧
      ((Scan.start.readAll reads).1.settleHeight late sourceDims).lastFrame =
        (Chunks.chunks (frameLen height) (received reads)).getLastD [] ∧
      scanTail reads late sourceDims exit = (wholeScan height (received reads)).verdict sourceDims exit ∧
      ((received reads).length % frameLen height ≠ 0 → ∃ fault, scanTail reads late sourceDims exit = .error fault) ∧
      (∀ card, LeastStart card 0 (terminalRunStart card)) ∧
      ∀ size frames, 0 < size → Fits size 0 frames →
        readFrames size [] frames =
          (Chunks.chunks size (received frames), some ((received frames).length % size)) := by
  have whole := (scanned_whole positive inTime).2
  have judged := scan_tail_whole positive inTime exit
  refine ⟨?_, ?_, judged, ?_, terminal_run_start_least, ?_⟩
  · rw [whole]
    rfl
  · rw [whole]
    rfl
  · intro isPartial
    rw [judged]
    exact verdict_partial positive isPartial sourceDims exit
  · intro size frames room fits
    rw [← Chunks.rest_length]
    have filled : Fits size ([] : List UInt8).length frames := fits
    exact read_frames_whole room filled

/-- The height arrives with the second of two reads, and the stream ends inside the first frame. -/
theorem tail_cut_short :
    ∃ fault, scanTail [.data 1 [2, 3] none, .interrupted, .data 4 [] (some 2)] none none (.ok ()) = .error fault := by
  have inTime : KnownInTime 2 none none 0 [.data 1 [2, 3] none, .interrupted, .data 4 [] (some 2)] :=
    ⟨by decide, rfl, by decide⟩
  exact (tail_by_frames 2 (by decide) none none _ inTime (.ok ())).2.2.2.1 (by decide)

end Panoptikon.Media.Outro
