import Panoptikon.Foundation.BinaryText
import Panoptikon.Foundation.TextCuts

/-!
# Policy tokens

A token names a policy, an expiry and an origin, and is signed over the text of the three.
It is split from the right, since the name of a policy may hold dots. HMAC-SHA256 is a
parameter.
-/

namespace Panoptikon.Policy

open Foundation

inductive TokenError where
  | malformed
  | badHmac
  | expired

structure TokenClaims where
  policy : Text
  origin : Text

abbrev TokenKey := Vector UInt8 32

/-- What is signed together: a policy and an origin, neither of them empty, and an expiry. -/
structure Signed where
  policyName : Text
  origin : Text
  expiryUnix : UInt64
  named : policyName ≠ []
  located : origin ≠ []

namespace Signed

def originSegment (signed : Signed) : Text := Base64.encode (Text.utf8 signed.origin)

def expiryText (signed : Signed) : Text := Nat.toDigits 10 signed.expiryUnix.toNat

/-- `<policy>.<expiry>.<origin_b64url>` -/
def message (signed : Signed) : Text :=
  signed.policyName ++ '.' :: (signed.expiryText ++ '.' :: signed.originSegment)

def claims (signed : Signed) : TokenClaims := ⟨signed.policyName, signed.origin⟩

end Signed

namespace TokenKey

variable (hmac : TokenKey → List UInt8 → List UInt8) (key : TokenKey)

def sign (signed : Signed) : Text :=
  signed.message ++ '.' :: Hex.encode (hmac key (Text.utf8 signed.message))

/-- A token's last three segments and what is in front of them. -/
structure Segments where
  name : Text
  expiry : Text
  origin : Text
  tag : Text

/-- `rsplitn(4, '.')` -/
def split (token : Text) : Option Segments := do
  let beforeTag ← Text.rsplitOnce '.' token
  let beforeOrigin ← Text.rsplitOnce '.' beforeTag.1
  let beforeExpiry ← Text.rsplitOnce '.' beforeOrigin.1
  return ⟨beforeExpiry.1, beforeExpiry.2, beforeOrigin.2, beforeTag.2⟩

/-- Everything before the separator of the tag. -/
def Segments.message (segments : Segments) : Text :=
  segments.name ++ '.' :: (segments.expiry ++ '.' :: segments.origin)

def decodeOrigin (segment : Text) : Option Text :=
  (((Base64.decode segment).bind Text.fromUtf8).filter fun origin => !origin.isEmpty)

def verifyAt (token : Text) (now : UInt64) : Except TokenError TokenClaims :=
  match split token with
  | none => .error .malformed
  | some segments =>
      if segments.name.isEmpty then .error .malformed
      else
        match Text.parseUsize segments.expiry with
        | none => .error .malformed
        | some expiry =>
            match decodeOrigin segments.origin with
            | none => .error .malformed
            | some origin =>
                match Hex.decode segments.tag with
                | none => .error .malformed
                | some tag =>
                    if hmac key (Text.utf8 segments.message) = tag then
                      if expiry < now.toNat then .error .expired else .ok ⟨segments.name, origin⟩
                    else .error .badHmac

theorem split_iff {token : Text} {segments : Segments} : split token = some segments ↔
    token = segments.message ++ '.' :: segments.tag ∧ '.' ∉ segments.expiry ∧ '.' ∉ segments.origin ∧
      '.' ∉ segments.tag := by
  constructor
  · intro isSplit
    simp only [split, Option.bind_eq_bind, Option.bind_eq_some_iff] at isSplit
    obtain ⟨⟨front, tag⟩, isTag, ⟨middle, origin⟩, isOrigin, ⟨name, expiry⟩, isExpiry, same⟩ := isSplit
    cases same
    obtain ⟨rfl, tagPlain⟩ := Text.rsplit_once_iff.mp isTag
    obtain ⟨isFront, originPlain⟩ := Text.rsplit_once_iff.mp isOrigin
    obtain ⟨isMiddle, expiryPlain⟩ := Text.rsplit_once_iff.mp isExpiry
    dsimp only at isFront isMiddle
    refine ⟨?_, expiryPlain, originPlain, tagPlain⟩
    simp only [isFront, isMiddle, Segments.message, List.append_assoc, List.cons_append]
  · rintro ⟨rfl, expiryPlain, originPlain, tagPlain⟩
    have isTag := Text.rsplit_once_iff.mpr ⟨@rfl _ (segments.message ++ '.' :: segments.tag), tagPlain⟩
    have isMessage : segments.message = (segments.name ++ '.' :: segments.expiry) ++ '.' :: segments.origin := by
      rw [Segments.message, List.append_assoc, List.cons_append]
    have isOrigin := Text.rsplit_once_iff.mpr ⟨isMessage, originPlain⟩
    have isExpiry := Text.rsplit_once_iff.mpr ⟨@rfl _ (segments.name ++ '.' :: segments.expiry), expiryPlain⟩
    simp only [split, isTag, isOrigin, isExpiry, Option.bind_eq_bind, Option.bind_some]
    rfl

theorem utf8_injective : Function.Injective Text.utf8 := by
  intro left right same
  have decoded := congrArg Text.fromUtf8 same
  rw [Text.from_utf8_utf8, Text.from_utf8_utf8] at decoded
  exact Option.some.inj decoded

variable (signed : Signed)

theorem origin_decoded : decodeOrigin signed.originSegment = some signed.origin := by
  have nonempty : (!signed.origin.isEmpty) = true := by
    rw [Bool.not_eq_true', List.isEmpty_eq_false_iff]
    exact signed.located
  rw [decodeOrigin, Signed.originSegment, Base64.decode_encode, Option.bind_some, Text.from_utf8_utf8,
    Option.filter_some, if_pos nonempty]

theorem expiry_parsed : Text.parseUsize signed.expiryText = some signed.expiryUnix.toNat := by
  rw [Signed.expiryText, Text.parse_usize_digits, if_pos signed.expiryUnix.toNat_lt]

theorem signed_plain : '.' ∉ signed.expiryText ∧ '.' ∉ signed.originSegment := by
  constructor
  · intro isIn
    have isDigit := Nat.isDigit_of_mem_toDigits (by decide) (by decide) isIn
    exact absurd isDigit (by decide)
  · intro isIn
    exact absurd (Base64.encode_chars _ '.' isIn) (by decide)

theorem hex_plain (bytes : List UInt8) : '.' ∉ Hex.encode bytes := by
  intro isIn
  exact absurd (Hex.encode_chars isIn) (by decide)

/-- The segments of a token that carries a message under some tag text. -/
def segmentsOf (signed : Signed) (tagText : Text) : Segments :=
  ⟨signed.policyName, signed.expiryText, signed.originSegment, tagText⟩

theorem split_signed {tagText : Text} (plain : '.' ∉ tagText) :
    split (signed.message ++ '.' :: tagText) = some (segmentsOf signed tagText) :=
  split_iff.mpr ⟨rfl, (signed_plain signed).1, (signed_plain signed).2, plain⟩

theorem verify_signed {tagText : Text} (plain : '.' ∉ tagText)
    (decoded : Hex.decode tagText = some (hmac key (Text.utf8 signed.message))) (now : UInt64) :
    verifyAt hmac key (signed.message ++ '.' :: tagText) now =
      if now ≤ signed.expiryUnix then .ok signed.claims else .error .expired := by
  have named : ¬(segmentsOf signed tagText).name.isEmpty = true := by
    rw [List.isEmpty_iff]
    exact signed.named
  have parsed : Text.parseUsize (segmentsOf signed tagText).expiry = some signed.expiryUnix.toNat :=
    expiry_parsed signed
  have origin : decodeOrigin (segmentsOf signed tagText).origin = some signed.origin := origin_decoded signed
  have tag : Hex.decode (segmentsOf signed tagText).tag =
      some (hmac key (Text.utf8 (segmentsOf signed tagText).message)) := decoded
  rw [verifyAt, split_signed signed plain]
  dsimp only
  rw [if_neg named, parsed]
  dsimp only
  rw [origin]
  dsimp only
  rw [tag]
  dsimp only
  rw [if_pos rfl]
  by_cases fresh : now ≤ signed.expiryUnix
  · rw [if_neg (Nat.not_lt.mpr (UInt64.le_iff_toNat_le.mp fresh)), if_pos fresh]
    rfl
  · have late : ¬now.toNat ≤ signed.expiryUnix.toNat := by
      rw [← UInt64.le_iff_toNat_le]
      exact fresh
    rw [if_pos (Nat.lt_of_not_le late), if_neg fresh]

def tagOf (token : Text) : Option (List UInt8) := (split token).bind fun segments => Hex.decode segments.tag

def expiryOf (token : Text) : Option Nat := (split token).bind fun segments => Text.parseUsize segments.expiry

theorem accepted_tag {token : Text} {now : UInt64} {claims : TokenClaims}
    (accepted : verifyAt hmac key token now = .ok claims) :
    ∃ segments, split token = some segments ∧ tagOf token = some (hmac key (Text.utf8 segments.message)) := by
  unfold verifyAt at accepted
  split at accepted
  · cases accepted
  · rename_i segments isSplit
    refine ⟨segments, isSplit, ?_⟩
    split at accepted
    · cases accepted
    · split at accepted
      · cases accepted
      · split at accepted
        · cases accepted
        · split at accepted
          · cases accepted
          · rename_i tag isTag
            split at accepted
            · rename_i verified
              rw [tagOf, isSplit, Option.bind_some, isTag, verified]
            · cases accepted

def RoundTrips : Prop :=
  ∀ (signed : Signed) (now : UInt64), verifyAt hmac key (sign hmac key signed) now =
    if now ≤ signed.expiryUnix then .ok signed.claims else .error .expired

/-- An accepted token that carries the tag of a signed message asserts what was signed, however it is spelled. -/
def Unambiguous : Prop :=
  ∀ (signed : Signed) (token : Text) (now : UInt64) (claims : TokenClaims),
    verifyAt hmac key token now = .ok claims → tagOf token = some (hmac key (Text.utf8 signed.message)) →
      claims = signed.claims ∧ expiryOf token = some signed.expiryUnix.toNat ∧ now ≤ signed.expiryUnix

theorem round_trips : RoundTrips hmac key := by
  intro signed now
  exact verify_signed hmac key signed (hex_plain _) (Hex.decode_encode _) now

theorem unambiguous (injective : Function.Injective (hmac key)) : Unambiguous hmac key := by
  intro signed token now claims accepted tagged
  obtain ⟨segments, isSplit, isTag⟩ := accepted_tag hmac key accepted
  have sameBytes := injective (Option.some.inj (tagged.symm.trans isTag))
  have same : signed.message = segments.message := utf8_injective sameBytes
  obtain ⟨whole, -, -, plain⟩ := split_iff.mp isSplit
  rw [← same] at whole
  have decoded : Hex.decode segments.tag = some (hmac key (Text.utf8 signed.message)) := by
    rw [tagOf, isSplit, Option.bind_some] at tagged
    exact tagged
  have verified := verify_signed hmac key signed plain decoded now
  rw [← whole, accepted] at verified
  split at verified
  · rename_i fresh
    have resplit := split_signed signed plain
    rw [← whole] at resplit
    refine ⟨Except.ok.inj verified, ?_, fresh⟩
    rw [expiryOf, resplit, Option.bind_some]
    exact expiry_parsed signed
  · cases verified

/-- Tokens round-trip, and no other spelling of one asserts anything else, as long as no two messages share a tag. -/
theorem tokens_assert_signed :
    RoundTrips hmac key ∧ (Function.Injective (hmac key) → Unambiguous hmac key) :=
  ⟨round_trips hmac key, unambiguous hmac key⟩

end TokenKey

def countingKey : TokenKey := Vector.ofFn fun index : Fin 32 => UInt8.ofNat index

/-- A policy whose name has a dot. -/
def dotted : Signed := ⟨"a.b".toList, "http://[::1]:80".toList, 10, by decide, by decide⟩

/-- HMAC-SHA256 of the message under the key. -/
def dottedTag : List UInt8 :=
  [5, 191, 220, 124, 109, 158, 130, 200, 136, 53, 124, 73, 4, 187, 184, 165, 202, 196, 14, 104, 48, 170, 134, 22,
    150, 195, 159, 92, 145, 108, 201, 96]

/-- A keyed function that agrees with HMAC-SHA256 on that message. -/
def injectiveHmac (key : TokenKey) (message : List UInt8) : List UInt8 :=
  if key = countingKey ∧ message = Text.utf8 dotted.message then dottedTag else 0 :: message

theorem injective_hmac : Function.Injective (injectiveHmac countingKey) := by
  have differ (message : List UInt8) : dottedTag ≠ 0 :: message := by
    intro same
    injection same with first
    exact absurd first (by decide)
  intro left right same
  unfold injectiveHmac at same
  split at same
  · rename_i isLeft
    split at same
    · rename_i isRight
      exact isLeft.2.trans isRight.2.symm
    · exact absurd same (differ right)
  · split at same
    · exact absurd same.symm (differ left)
    · exact (List.cons.inj same).2

/-- The dotted token asserts what was signed. -/
theorem dotted_asserts : TokenKey.verifyAt injectiveHmac countingKey
      (TokenKey.sign injectiveHmac countingKey dotted) 10 = .ok ⟨"a.b".toList, "http://[::1]:80".toList⟩ ∧
    TokenKey.Unambiguous injectiveHmac countingKey := by
  have asserted := TokenKey.tokens_assert_signed injectiveHmac countingKey
  exact ⟨asserted.1 dotted 10, asserted.2 injective_hmac⟩

end Panoptikon.Policy
