import Mathlib.Data.List.Basic

/-!
# Length-prefixed frames

A stream carries payloads, each behind its length. A header that has been read
whole says how many bytes the payload has, so two streams of frames with the
same bytes carry the same payloads.
-/

namespace Foundation

/-- How a length is written, and read back below its limit. -/
structure LengthPrefix where
  width : Nat
  limit : Nat
  write : Nat → List UInt8
  read : List UInt8 → Nat
  width_write : ∀ length, (write length).length = width
  read_write : ∀ length < limit, read (write length) = length
  write_read : ∀ bytes, bytes.length = width → write (read bytes) = bytes

namespace LengthPrefix

variable (header : LengthPrefix)

def frame (payload : List UInt8) : List UInt8 := header.write payload.length ++ payload

def frames (payloads : List (List UInt8)) : List UInt8 := payloads.flatMap header.frame

@[simp] theorem frames_nil : header.frames [] = [] := rfl

@[simp] theorem frames_append (first last : List (List UInt8)) :
    header.frames (first ++ last) = header.frames first ++ header.frames last :=
  List.flatMap_append

@[simp] theorem frames_singleton (payload : List UInt8) :
    header.frames [payload] = header.frame payload := by
  rw [frames, List.flatMap_cons, List.flatMap_nil, List.append_nil]

theorem frame_of_read {bytes payload : List UInt8} (isHeader : bytes.length = header.width)
    (length : header.read bytes = payload.length) : header.frame payload = bytes ++ payload := by
  rw [frame, ← length, header.write_read bytes isHeader]

end LengthPrefix

end Foundation
