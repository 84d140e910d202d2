import Flowchart.Encoding.Utf8

/-!
# The encoding of a JSON document

A JSON document may be written in UTF-8, UTF-16 or UTF-32, in either order of bytes, and with a
byte order mark or without. Its first bytes tell which it is, since a document begins with two
characters of one byte. `decodeDocument?` reads a document in the encoding that it finds.
-/

set_option autoImplicit false

namespace Flowchart.Encoding

/-! ## Units of two and four bytes -/

/-- The UTF-16 units of bytes, the larger byte first if `bigFirst`; nothing for half a unit. -/
def units16? (bigFirst : Bool) : Bytes → Option (List Nat)
  | [] => some []
  | [_] => none
  | a :: b :: rest =>
      let unit := if bigFirst then a.toNat * 256 + b.toNat else b.toNat * 256 + a.toNat
      (units16? bigFirst rest).map (unit :: ·)

/-- The raw text of UTF-16 units. A half of a pair is kept where the other half is missing. -/
def decode16 : List Nat → RawText
  | [] => []
  | [unit] => [.ofNat unit]
  | first :: second :: rest =>
      if 0xd800 ≤ first ∧ first < 0xdc00 ∧ 0xdc00 ≤ second ∧ second < 0xe000 then
        .ofNat (0x10000 + (first - 0xd800) * 0x400 + (second - 0xdc00)) :: decode16 rest
      else .ofNat first :: decode16 (second :: rest)

/-- The raw text of code points of four bytes each, the largest byte first if `bigFirst`; nothing
for part of a code point or for one that is too large. -/
def decode32? (bigFirst : Bool) : Bytes → Option RawText
  | [] => some []
  | a :: b :: c :: d :: rest =>
      let point :=
        if bigFirst then ((a.toNat * 256 + b.toNat) * 256 + c.toNat) * 256 + d.toNat
        else ((d.toNat * 256 + c.toNat) * 256 + b.toNat) * 256 + a.toNat
      if point < 0x110000 then (decode32? bigFirst rest).map (.ofNat point :: ·) else none
  | _ => none

/-! ## Documents -/

inductive Form where
  | utf8
  | utf16 (bigFirst : Bool)
  | utf32 (bigFirst : Bool)
deriving DecidableEq, Repr

/-- The encoding of a document and its bytes behind the byte order mark. -/
def form (bytes : Bytes) : Form × Bytes :=
  match bytes with
  | 0x00 :: 0x00 :: 0xfe :: 0xff :: rest => (.utf32 true, rest)
  | 0xff :: 0xfe :: 0x00 :: 0x00 :: rest => (.utf32 false, rest)
  | 0xfe :: 0xff :: rest => (.utf16 true, rest)
  | 0xff :: 0xfe :: rest => (.utf16 false, rest)
  | 0xef :: 0xbb :: 0xbf :: rest => (.utf8, rest)
  | a :: b :: c :: d :: _ =>
      if a = 0 then (if b = 0 then .utf32 true else .utf16 true, bytes)
      else if b = 0 then (if c = 0 ∧ d = 0 then .utf32 false else .utf16 false, bytes)
      else (.utf8, bytes)
  | [a, b] =>
      (if a = 0 then .utf16 true else if b = 0 then .utf16 false else .utf8, bytes)
  | _ => (.utf8, bytes)

def decodeDocument? (bytes : Bytes) : Option RawText :=
  match form bytes with
  | (.utf8, rest) => decodeUtf8? rest
  | (.utf16 bigFirst, rest) => (units16? bigFirst rest).map decode16
  | (.utf32 bigFirst, rest) => decode32? bigFirst rest

end Flowchart.Encoding
