import Flowchart.Text.Raw

/-!
# UTF-8

Bytes are read as UTF-8 one after the other. A sequence of bytes that is well formed gives a
code point; one that breaks off gives a single gap for all of it, and a byte that can begin no
sequence gives a gap of its own. `decodeUtf8Lossy` puts the replacement character into each gap,
`decodeUtf8?` takes no text with a gap, and `decodeUtf8Escaping` takes each byte of a gap for half
of a pair.
-/

set_option autoImplicit false

namespace Flowchart

/-- Bytes, as a file or a request holds them. -/
abbrev Bytes := List UInt8

namespace Encoding

/-- A sequence that has begun: how many bytes are missing, between what bounds the next one must
lie, and the bits read so far. -/
structure Pending where
  missing : Nat
  low : Nat
  high : Nat
  bits : Nat
deriving DecidableEq, Repr

/-- What the first byte of a sequence begins. -/
inductive Lead where
  | char (c : Char)
  | pending (p : Pending)
  | gap
deriving DecidableEq, Repr

/-- What a byte begins. With `halves`, the halves of UTF-16 pairs count as code points. -/
def lead (halves : Bool) (byte : Nat) : Lead :=
  if byte < 0x80 then .char (Char.ofNat byte)
  else if byte < 0xc2 then .gap
  else if byte < 0xe0 then .pending ⟨1, 0x80, 0xbf, byte - 0xc0⟩
  else if byte = 0xe0 then .pending ⟨2, 0xa0, 0xbf, 0⟩
  else if byte = 0xed then .pending ⟨2, 0x80, if halves then 0xbf else 0x9f, 0xd⟩
  else if byte < 0xf0 then .pending ⟨2, 0x80, 0xbf, byte - 0xe0⟩
  else if byte = 0xf0 then .pending ⟨3, 0x90, 0xbf, 0⟩
  else if byte < 0xf4 then .pending ⟨3, 0x80, 0xbf, byte - 0xf0⟩
  else if byte = 0xf4 then .pending ⟨3, 0x80, 0x8f, 4⟩
  else .gap

/-- What a run of bytes gives: a code point, or a gap with its bytes. -/
inductive Piece where
  | point (point : CodePoint)
  | gap (bytes : Bytes)
deriving DecidableEq, Repr

/-- The code points and gaps of bytes. The bytes `begun` of a sequence stand before them, and
`pending` says how it goes on. -/
def decodeFrom (halves : Bool) : (begun : Bytes) → Option Pending → Bytes → List Piece
  | _, none, [] => []
  | begun, some _, [] => [.gap begun]
  | _, none, byte :: bytes =>
      match lead halves byte.toNat with
      | .char c => .point (.char c) :: decodeFrom halves [] none bytes
      | .pending p => decodeFrom halves [byte] (some p) bytes
      | .gap => .gap [byte] :: decodeFrom halves [] none bytes
  | begun, some p, byte :: bytes =>
      let n := byte.toNat
      if p.low ≤ n ∧ n ≤ p.high then
        let bits := p.bits * 64 + (n - 0x80)
        if p.missing = 1 then .point (.ofNat bits) :: decodeFrom halves [] none bytes
        else decodeFrom halves (begun ++ [byte]) (some ⟨p.missing - 1, 0x80, 0xbf, bits⟩) bytes
      else
        match lead halves n with
        | .char c => .gap begun :: .point (.char c) :: decodeFrom halves [] none bytes
        | .pending q => .gap begun :: decodeFrom halves [byte] (some q) bytes
        | .gap => .gap begun :: .gap [byte] :: decodeFrom halves [] none bytes

def Piece.point? : Piece → Option CodePoint
  | point p => some p
  | gap _ => none

/-- The text of bytes, with a replacement character in each gap. -/
def decodeUtf8Lossy (bytes : Bytes) : Text :=
  (decodeFrom false [] none bytes).map fun piece =>
    (piece.point?.bind CodePoint.char?).getD RawText.replacement

/-- The raw text of bytes that have no gap; halves of UTF-16 pairs count as code points. -/
def decodeUtf8? (bytes : Bytes) : Option RawText :=
  (decodeFrom true [] none bytes).mapM Piece.point?

def encodeUtf8 (t : Text) : Bytes := t.flatMap String.utf8EncodeChar

end Encoding

end Flowchart
