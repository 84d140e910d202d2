import Flowchart.Text.Printable
import Flowchart.Text.Raw

/-!
# Quoted text

A text is shown between quotes when it is named in a message. What cannot be printed is written
as an escape, so the message stays on its line and shows every character of the text.
-/

set_option autoImplicit false

namespace Flowchart.Text

/-- The lower-case hexadecimal digit of a number below sixteen. -/
def hexDigit (n : Nat) : Char := Nat.digitChar n

/-- The last `width` hexadecimal digits of a number. -/
def hexDigits (width n : Nat) : Text :=
  match width with
  | 0 => []
  | width + 1 => hexDigits width (n / 16) ++ [hexDigit (n % 16)]

/-- A character between quotes: the quote and the backslash stand behind a backslash, and a
character that cannot be printed is written with its code point. -/
def quotedChar (quote c : Char) : Text :=
  if c = quote ∨ c = '\\' then ['\\', c]
  else if c = '\n' then "\\n".toList
  else if c = '\r' then "\\r".toList
  else if c = '\t' then "\\t".toList
  else if isPrintable c then [c]
  else if c.toNat < 0x100 then "\\x".toList ++ hexDigits 2 c.toNat
  else if c.toNat < 0x10000 then "\\u".toList ++ hexDigits 4 c.toNat
  else "\\U".toList ++ hexDigits 8 c.toNat

/-- The quote that a text is shown between: a single quote, unless the text holds one and no double
quote. -/
def quoteFor (t : Text) : Char := if t.contains '\'' && !t.contains '"' then '"' else '\''

/-- A text between quotes. -/
def quoted (t : Text) : Text :=
  quoteFor t :: t.flatMap (quotedChar (quoteFor t)) ++ [quoteFor t]

/-- A code point between quotes; a half is written with its unit. -/
def quotedPoint (quote : Char) : CodePoint → Text
  | .char c => quotedChar quote c
  | .half h => "\\u".toList ++ hexDigits 4 h.unit

/-- A raw text between quotes. -/
def quotedRaw (s : RawText) : Text :=
  quoteFor s.chars :: s.flatMap (quotedPoint (quoteFor s.chars)) ++ [quoteFor s.chars]

end Flowchart.Text
