import Panoptikon.Foundation.TextCuts
import Panoptikon.Foundation.TextLines

/-!
# Share names

`sanitize_share_name_within` of the transcode cache and its mirror in the desktop's
`share_cache.rs`, which is written by hand. A name that comes out is one path component.
-/

namespace Panoptikon.Transcode

open Foundation

/-- Neither crate lets a control character through: the general category Cc. -/
def isControl (character : Char) : Bool :=
  character.toNat < 0x20 || (0x7f ≤ character.toNat && character.toNat ≤ 0x9f)

/-- `str::split('.').next()` -/
def firstPiece (name : Text) : Text := name.takeWhile (· != '.')

def eqIgnoreAsciiCase (first second : Text) : Bool :=
  Text.toAsciiLowercase first = Text.toAsciiLowercase second

/-- `name.rfind('.')`: a leading dot is part of the stem. -/
def splitExtension (name : Text) : Text × Text :=
  match Text.splitLast '.' name with
  | some (first :: stem, extension) => (first :: stem, extension)
  | _ => (name, [])

/-- The extension, if it leaves the stem at least half of the ceiling. -/
def keptExtension (name : Text) (ceiling : Nat) : Text :=
  if ceiling / 2 < Text.byteLength (splitExtension name).2 then [] else (splitExtension name).2

/-- The stem up to the last character that fits, with the extension. -/
def truncated (name : Text) (ceiling : Nat) : Text :=
  let extension := keptExtension name ceiling
  let stem := (splitExtension name).1
  Text.cutTo stem (min (Text.byteLength stem) (ceiling - Text.byteLength extension)) ++ extension

def invalidFilenameChars : List Char := ['/', '\\', ':', '*', '?', '"', '<', '>', '|']

def reservedNames : List Text :=
  ["CON".toList, "PRN".toList, "AUX".toList, "NUL".toList, "COM1".toList, "COM2".toList, "COM3".toList,
    "COM4".toList, "COM5".toList, "COM6".toList, "COM7".toList, "COM8".toList, "COM9".toList, "LPT1".toList,
    "LPT2".toList, "LPT3".toList, "LPT4".toList, "LPT5".toList, "LPT6".toList, "LPT7".toList, "LPT8".toList,
    "LPT9".toList]

def safeChar (character : Char) : Option Char :=
  if character = '%' then some '_'
  else if invalidFilenameChars.elem character || isControl character then none
  else some character

def stripUnsafe (value : Text) : Text :=
  Text.trimEndChars ['.', ' '] (Text.trim (value.filterMap safeChar))

def isReserved (name : Text) : Bool :=
  reservedNames.any fun reserved => eqIgnoreAsciiCase reserved (firstPiece name)

def escapeReserved (cleaned : Text) : Text := if isReserved cleaned then '_' :: cleaned else cleaned

def truncateShareName (name : Text) (ceiling : Nat) : Option Text :=
  if Text.byteLength name ≤ ceiling then some name
  else if truncated name ceiling ≠ [] ∧ truncated name ceiling ≠ keptExtension name ceiling then
    some (truncated name ceiling)
  else none

def sanitizeShareNameWithin (name : Text) (ceiling : Nat) : Option Text :=
  let cleaned := stripUnsafe name
  if cleaned.isEmpty then none else truncateShareName (escapeReserved cleaned) ceiling

namespace Desktop

def maxComponentBytes : Nat := 255

def invalidFilenameChars : List Char := ['/', '\\', ':', '*', '?', '"', '<', '>', '|']

def reservedNames : List Text :=
  ["CON".toList, "PRN".toList, "AUX".toList, "NUL".toList, "COM1".toList, "COM2".toList, "COM3".toList,
    "COM4".toList, "COM5".toList, "COM6".toList, "COM7".toList, "COM8".toList, "COM9".toList, "LPT1".toList,
    "LPT2".toList, "LPT3".toList, "LPT4".toList, "LPT5".toList, "LPT6".toList, "LPT7".toList, "LPT8".toList,
    "LPT9".toList]

def stripUnsafe (value : Text) : Text :=
  Text.trimEndChars ['.', ' '] (Text.trim (value.filterMap fun character =>
    if character = '%' then some '_'
    else if invalidFilenameChars.elem character || isControl character then none
    else some character))

/-- The first characters of the content hash stand for a stem of which nothing fits. -/
def truncateComponent (name sha256 : Text) : Text :=
  if Text.byteLength name ≤ maxComponentBytes then name
  else if truncated name maxComponentBytes = [] ∨
      truncated name maxComponentBytes = keptExtension name maxComponentBytes then
    sha256.take 10 ++ keptExtension name maxComponentBytes
  else truncated name maxComponentBytes

/-- `filename.rsplit_once('.')`, and the extension behind it. -/
def fallbackExtension (filename : Text) : Text :=
  match Text.splitLast '.' filename with
  | some (_, extension) => stripUnsafe (extension.drop 1)
  | none => []

def sanitizeFilename (filename sha256 : Text) : Text :=
  let cleaned := stripUnsafe filename
  if cleaned.isEmpty then
    let stem := sha256.take 10
    let extension := fallbackExtension filename
    truncateComponent (if extension.isEmpty then stem else stem ++ '.' :: extension) sha256
  else if reservedNames.any fun reserved => eqIgnoreAsciiCase reserved (firstPiece cleaned) then
    truncateComponent ('_' :: cleaned) sha256
  else truncateComponent cleaned sha256

end Desktop

/-- The ceiling that the desktop copy corresponds to. -/
def maxShareNameBytes : Nat := 255

/-- The desktop gives every name that the server finds usable the same name. -/
theorem desktop_same {name shared : Text} (found : sanitizeShareNameWithin name maxShareNameBytes = some shared)
    (sha256 : Text) : Desktop.sanitizeFilename name sha256 = shared := by
  have cleaned : Desktop.stripUnsafe name = stripUnsafe name := rfl
  have truncates {component : Text} (isTruncated : truncateShareName component maxShareNameBytes = some shared) :
      Desktop.truncateComponent component sha256 = shared := by
    have same : Desktop.maxComponentBytes = maxShareNameBytes := rfl
    unfold truncateShareName at isTruncated
    unfold Desktop.truncateComponent
    rw [same]
    split at isTruncated
    · rename_i fits
      rw [if_pos fits]
      exact Option.some.inj isTruncated
    · rename_i exceeds
      rw [if_neg exceeds]
      split at isTruncated
      · rename_i usable
        rw [if_neg (not_or.mpr usable)]
        exact Option.some.inj isTruncated
      · cases isTruncated
  unfold sanitizeShareNameWithin at found
  unfold Desktop.sanitizeFilename
  dsimp only at found ⊢
  rw [cleaned]
  split at found
  · cases found
  · rename_i nonempty
    rw [if_neg nonempty]
    unfold escapeReserved at found
    have reserved : isReserved (stripUnsafe name) =
        Desktop.reservedNames.any fun reserved => eqIgnoreAsciiCase reserved (firstPiece (stripUnsafe name)) := rfl
    rw [reserved] at found
    split
    · rename_i isReserved
      rw [if_pos isReserved] at found
      exact truncates found
    · rename_i notReserved
      rw [if_neg notReserved] at found
      exact truncates found

end Panoptikon.Transcode
