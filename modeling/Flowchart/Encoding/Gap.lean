import Flowchart.Encoding.Utf8
import Flowchart.Text.Quoted

/-!
# Text that has to be UTF-8

Where bytes have to be UTF-8 throughout, the first gap in them ends the reading. `firstGap?` finds
it; `firstGap?_eq_none_iff` says that none is found exactly when every byte is part of a
character, so that nothing is lost by `readUtf8`.
-/

set_option autoImplicit false

namespace Flowchart.Encoding

open Text

inductive GapCause where
  | start
  /-- The character that has begun does not go on. -/
  | continuation
  | ending
deriving DecidableEq, Repr

/-- A gap in bytes: where it begins, the bytes in it and why it is there. -/
structure Gap where
  position : Nat
  bytes : Bytes
  cause : GapCause
deriving DecidableEq, Repr

/-- What is said about a gap for its cause. -/
def GapCause.message : GapCause → Text
  | start => "invalid start byte".toList
  | continuation => "invalid continuation byte".toList
  | ending => "unexpected end of data".toList

def Gap.message (gap : Gap) : Text :=
  let place :=
    match gap.bytes with
    | [byte] =>
        "byte 0x".toList ++ hexDigits 2 byte.toNat ++ " in position ".toList ++
          decimal gap.position
    | bytes =>
        "bytes in position ".toList ++ decimal gap.position ++ ['-'] ++
          decimal (gap.position + bytes.length - 1)
  "'utf-8' codec can't decode ".toList ++ place ++ ": ".toList ++ gap.cause.message

/-- The first gap in bytes from a position on. The bytes `begun` of a character stand before
them, and `pending` says how it goes on. -/
def gapFrom (position : Nat) : (begun : Bytes) → Option Pending → Bytes → Option Gap
  | _, none, [] => none
  | begun, some _, [] => some ⟨position, begun, .ending⟩
  | _, none, byte :: bytes =>
      match lead false byte.toNat with
      | .char _ => gapFrom (position + 1) [] none bytes
      | .pending p => gapFrom position [byte] (some p) bytes
      | .gap => some ⟨position, [byte], .start⟩
  | begun, some p, byte :: bytes =>
      let n := byte.toNat
      if p.low ≤ n ∧ n ≤ p.high then
        if p.missing = 1 then gapFrom (position + begun.length + 1) [] none bytes
        else
          gapFrom position (begun ++ [byte])
            (some ⟨p.missing - 1, 0x80, 0xbf, p.bits * 64 + (n - 0x80)⟩) bytes
      else some ⟨position, begun, .continuation⟩

def firstGap? (bytes : Bytes) : Option Gap := gapFrom 0 [] none bytes

/-- The text of bytes without gaps; for others the first gap. -/
def readUtf8 (bytes : Bytes) : Except Gap Text :=
  match firstGap? bytes with
  | some gap => .error gap
  | none => .ok (decodeUtf8Lossy bytes)

/-- A gap is found exactly when the decoder leaves one. -/
theorem gapFrom_eq_none_iff (bytes : Bytes) (position : Nat) (begun : Bytes)
    (pending : Option Pending) :
    gapFrom position begun pending bytes = none ↔
      ∀ piece ∈ decodeFrom false begun pending bytes, piece.point?.isSome = true := by
  induction bytes generalizing position begun pending with
  | nil => cases pending <;> simp [gapFrom, decodeFrom, Piece.point?]
  | cons byte bytes ih =>
      cases pending with
      | none =>
          simp only [gapFrom, decodeFrom]
          cases lead false byte.toNat <;> simp [ih, Piece.point?]
      | some p =>
          simp only [gapFrom, decodeFrom]
          split
          · split <;> simp [ih, Piece.point?]
          · cases lead false byte.toNat <;> simp [Piece.point?]

/-- No gap is found exactly when every byte is part of a code point. -/
theorem firstGap?_eq_none_iff (bytes : Bytes) :
    firstGap? bytes = none ↔
      ∀ piece ∈ decodeFrom false [] none bytes, piece.point?.isSome = true :=
  gapFrom_eq_none_iff bytes 0 [] none

end Flowchart.Encoding
