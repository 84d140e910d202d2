import Flowchart.Text.Basic
import Flowchart.Text.Digit

/-!
# Integers in settings

`readInteger?` reads an integer as people write it in a settings file: blanks may stand around
it, a sign in front of it, and single low lines between its digits; the digits may be decimal
digits of any script, up to 4300 of them.
-/

set_option autoImplicit false

namespace Flowchart.Settings

open Text

/-- Whether a character may stand around an integer: the blanks, but for the four information
separators. -/
def isMargin (c : Char) : Bool := isBlank c && !(0x1c ≤ c.toNat && c.toNat ≤ 0x1f)

/-- The values of digits, between which single low lines may stand. -/
def digitValues? : Text → Option (List Nat)
  | [] => none
  | c :: t =>
      match digitValue? c, t with
      | none, _ => none
      | some n, [] => some [n]
      | some n, '_' :: u => (digitValues? u).map (n :: ·)
      | some n, t => (digitValues? t).map (n :: ·)

/-- The most digits that an integer may have. -/
def maxDigits : Nat := 4300

def naturalOf (digits : List Nat) : Nat := digits.foldl (fun n d => n * 10 + d) 0

/-- The number that a text without a sign writes. -/
def readNatural? (t : Text) : Option Nat :=
  match digitValues? t with
  | some digits => if digits.length ≤ maxDigits then some (naturalOf digits) else none
  | none => none

/-- The text without the margins at its ends. -/
def trimMargins (t : Text) : Text :=
  ((t.dropWhile isMargin).reverse.dropWhile isMargin).reverse

def readInteger? (t : Text) : Option Int :=
  match trimMargins t with
  | '-' :: u => (readNatural? u).map fun n => -(n : Int)
  | '+' :: u => (readNatural? u).map fun n => (n : Int)
  | u => (readNatural? u).map fun n => (n : Int)

end Flowchart.Settings
