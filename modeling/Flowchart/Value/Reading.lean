import Flowchart.Value.Basic

/-!
# Reading a JSON document

`ofDocument?` reads a text as one JSON value, with nothing but blanks around it; the blanks of a
document are the space, the tab, the line feed and the carriage return. Besides what the JSON
grammar allows it takes the three literals `NaN`, `Infinity` and `-Infinity` as reals, and in a
string an escaped UTF-16 unit that is half of no pair. An integer has at most 4300 digits.

Each function takes a value off the front of a text and gives what is left. The functions that
call each other spend one unit of `fuel` a call; twice the length of the document is enough.
-/

set_option autoImplicit false

namespace Flowchart.Value

open Text

/-! ## Blanks and strings -/

/-- Whether a character is a blank of a document. -/
def isSpacing (c : Char) : Bool := c == ' ' || c == '\t' || c == '\n' || c == '\r'

/-- The text without the blanks it begins with. -/
def skipSpacing (t : Text) : Text := t.dropWhile isSpacing

def hexValue? (c : Char) : Option Nat :=
  if '0' ≤ c ∧ c ≤ '9' then some (c.toNat - '0'.toNat)
  else if 'a' ≤ c ∧ c ≤ 'f' then some (c.toNat - 'a'.toNat + 10)
  else if 'A' ≤ c ∧ c ≤ 'F' then some (c.toNat - 'A'.toNat + 10)
  else none

/-- The UTF-16 unit that four hexadecimal digits give. -/
def unit? (a b c d : Char) : Option Nat := do
  let a ← hexValue? a
  let b ← hexValue? b
  let c ← hexValue? c
  let d ← hexValue? d
  return ((a * 16 + b) * 16 + c) * 16 + d

/-- The character that a one-letter escape stands for. -/
def shortEscape? (c : Char) : Option Char :=
  if c = '"' ∨ c = '\\' ∨ c = '/' then some c
  else if c = 'n' then some '\n'
  else if c = 'r' then some '\r'
  else if c = 't' then some '\t'
  else if c = 'b' then some (Char.ofNat 0x08)
  else if c = 'f' then some (Char.ofNat 0x0c)
  else none

/-- The code points up to the closing quote, and what follows it. Each escape gives one of its own,
so the two halves of a pair are two. -/
def readPoints : Text → Option (RawText × Text)
  | '\\' :: 'u' :: a :: b :: c :: d :: t =>
      match unit? a b c d with
      | none => none
      | some unit => (readPoints t).map fun (points, rest) => (.ofNat unit :: points, rest)
  | '\\' :: c :: t =>
      match shortEscape? c with
      | none => none
      | some e => (readPoints t).map fun (points, rest) => (.char e :: points, rest)
  | c :: t =>
      if c = '"' then some ([], t)
      else if c.toNat < 0x20 ∨ c = '\\' then none
      else (readPoints t).map fun (points, rest) => (.char c :: points, rest)
  | [] => none

/-- The raw text up to the closing quote, and what follows it. -/
def readString (t : Text) : Option (RawText × Text) :=
  (readPoints t).map fun (points, rest) => (points.joined, rest)

/-! ## Numbers -/

/-- Whether a character is one of the digits `0` to `9`. -/
def isDigit (c : Char) : Bool := '0' ≤ c && c ≤ '9'

/-- The digits after a decimal point, with the point; nothing when no digit follows it. -/
def fraction (t : Text) : Text :=
  match t with
  | '.' :: u =>
      let digits := u.takeWhile isDigit
      if digits.isEmpty then [] else '.' :: digits
  | _ => []

/-- The exponent with its mark and sign; nothing when no digit follows them. -/
def exponent (t : Text) : Text :=
  match t with
  | e :: u =>
      if e = 'e' ∨ e = 'E' then
        let sign := (u.take 1).filter fun c => c == '+' || c == '-'
        let digits := (u.drop sign.length).takeWhile isDigit
        if digits.isEmpty then [] else e :: sign ++ digits
      else []
  | [] => []

def naturalOf (digits : Text) : Nat :=
  digits.foldl (fun n c => n * 10 + (c.toNat - '0'.toNat)) 0

/-- The most digits that an integer may have. -/
def maxDigits : Nat := 4300

/-- Reads a number that begins with a digit. -/
def readNumber (negative : Bool) (t : Text) : Option (Value × Text) :=
  let whole := if t.head? = some '0' then ['0'] else t.takeWhile isDigit
  if whole.isEmpty then none
  else
    let behind := t.drop whole.length
    let frac := fraction behind
    let exp := exponent (behind.drop frac.length)
    let rest := behind.drop (frac.length + exp.length)
    if frac.isEmpty && exp.isEmpty then
      if maxDigits < whole.length then none
      else
        let n : Int := naturalOf whole
        some (.int (if negative then -n else n), rest)
    else some (.real ((if negative then ['-'] else []) ++ whole ++ frac ++ exp), rest)

/-! ## Values -/

def literals : List (Text × Value) :=
  [("null".toList, .null), ("true".toList, .bool true), ("false".toList, .bool false),
   ("NaN".toList, .real "NaN".toList), ("Infinity".toList, .real "Infinity".toList),
   ("-Infinity".toList, .real "-Infinity".toList)]

def readSimple (t : Text) : Option (Value × Text) :=
  match literals.findSome? fun (word, v) => (after? word t).map fun rest => (v, rest) with
  | some found => some found
  | none =>
      match after? ['-'] t with
      | some digits => readNumber true digits
      | none => readNumber false t

mutual

def readValue : (fuel : Nat) → Text → Option (Value × Text)
  | 0, _ => none
  | fuel + 1, t =>
      match t with
      | [] => none
      | c :: rest =>
          if c = '"' then (readString rest).map fun (s, rest) => (ofRaw s, rest)
          else if c = '[' then
            match skipSpacing rest with
            | ']' :: rest => some (.list [], rest)
            | rest => (readItems fuel rest).map fun (items, rest) => (.list items, rest)
          else if c = '{' then
            match skipSpacing rest with
            | '}' :: rest => some (.record [], rest)
            | rest => (readFields fuel rest).map fun (fields, rest) => (.record fields, rest)
          else readSimple t

/-- Reads the items of a list up to its closing bracket. -/
def readItems : (fuel : Nat) → Text → Option (List Value × Text)
  | 0, _ => none
  | fuel + 1, t =>
      match readValue fuel t with
      | none => none
      | some (v, rest) =>
          match skipSpacing rest with
          | ']' :: rest => some ([v], rest)
          | ',' :: rest =>
              (readItems fuel (skipSpacing rest)).map fun (items, rest) => (v :: items, rest)
          | _ => none

/-- Reads the fields of a record up to its closing brace. -/
def readFields : (fuel : Nat) → Text → Option (List (Text × Value) × Text)
  | 0, _ => none
  | fuel + 1, t =>
      match t with
      | '"' :: t =>
          match readString t with
          | none => none
          | some (s, rest) =>
              match skipSpacing rest with
              | ':' :: rest =>
                  match readValue fuel (skipSpacing rest) with
                  | none => none
                  | some (v, rest) =>
                      match skipSpacing rest with
                      | '}' :: rest => some ([(s.filled, v)], rest)
                      | ',' :: rest =>
                          (readFields fuel (skipSpacing rest)).map fun (fields, rest) =>
                            ((s.filled, v) :: fields, rest)
                      | _ => none
              | _ => none
      | _ => none

end

def ofDocument? (t : Text) : Option Value :=
  match readValue (2 * t.length + 2) (skipSpacing t) with
  | some (v, rest) => if (skipSpacing rest).isEmpty then some v else none
  | none => none

end Flowchart.Value
