import Flowchart.Value.Basic

/-!
# Writing a value as a JSON document

`document` writes a value over several lines, each level of nesting indented by two more spaces
than the one around it. The document holds the characters from space to tilde only: any other
character of a text is written as an escape of its UTF-16 units.
-/

set_option autoImplicit false

namespace Flowchart.Value

/-! ## Texts -/

/-- The escape of a UTF-16 unit: its four hexadecimal digits behind a backslash and a `u`. -/
def unitEscape (unit : Nat) : Text := '\\' :: 'u' :: Text.hexDigits 4 unit

/-- A character as it is written inside a text. -/
def escapeChar (c : Char) : Text :=
  if c = '"' then ['\\', '"']
  else if c = '\\' then ['\\', '\\']
  else if ' ' ≤ c ∧ c ≤ '~' then [c]
  else if c = '\n' then ['\\', 'n']
  else if c = '\r' then ['\\', 'r']
  else if c = '\t' then ['\\', 't']
  else if c.toNat = 0x08 then ['\\', 'b']
  else if c.toNat = 0x0c then ['\\', 'f']
  else if c.toNat < 0x10000 then unitEscape c.toNat
  else
    let offset := c.toNat - 0x10000
    unitEscape (0xd800 + offset / 0x400) ++ unitEscape (0xdc00 + offset % 0x400)

/-- A text as it is written: its characters between double quotes. -/
def writeText (t : Text) : Text := '"' :: t.flatMap escapeChar ++ ['"']

/-- A code point as it is written inside a string. -/
def escapePoint : CodePoint → Text
  | .char c => escapeChar c
  | .half h => unitEscape h.unit

/-- A raw text as it is written. -/
def writeRaw (s : RawText) : Text := '"' :: s.flatMap escapePoint ++ ['"']

/-! ## Values -/

/-- The break before an entry at a level of nesting. -/
def breakAt (depth : Nat) : Text := '\n' :: List.replicate (2 * depth) ' '

mutual

/-- A value as it is written at a level of nesting. -/
def writeAt (depth : Nat) : Value → Text
  | .null => "null".toList
  | .bool b => if b then "true".toList else "false".toList
  | .int n => Text.signedDecimal n
  | .real literal => literal
  | .text t => writeText t
  | .broken s => writeRaw s.points
  | .list [] => "[]".toList
  | .list (v :: vs) =>
      '[' :: breakAt (depth + 1) ++ writeAt (depth + 1) v ++ writeItems (depth + 1) vs ++
        breakAt depth ++ [']']
  | .record [] => ['{', '}']
  | .record ((name, v) :: more) =>
      '{' :: breakAt (depth + 1) ++ writeText name ++ ": ".toList ++ writeAt (depth + 1) v ++
        writeFields (depth + 1) more ++ breakAt depth ++ ['}']

/-- The items of a list behind the first, each after a comma. -/
def writeItems (depth : Nat) : List Value → Text
  | [] => []
  | v :: vs => ',' :: breakAt depth ++ writeAt depth v ++ writeItems depth vs

/-- The fields of a record behind the first, each after a comma. -/
def writeFields (depth : Nat) : List (Text × Value) → Text
  | [] => []
  | (name, v) :: more =>
      ',' :: breakAt depth ++ writeText name ++ ": ".toList ++ writeAt depth v ++
        writeFields depth more

end

def document (v : Value) : Text := writeAt 0 v

end Flowchart.Value
