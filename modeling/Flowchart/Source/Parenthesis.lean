import Flowchart.Text.Basic

/-!
# The first parenthesis group

`parenGroup` takes the first balanced parenthesis group of a text apart: what stands inside it
and what follows it. A text whose first parenthesis is never closed has neither.
-/

set_option autoImplicit false

namespace Flowchart.Source

open Text

/-- The parts before and after the parenthesis that closes a group, `depth` groups inside it
being still open. -/
def closeGroup : (depth : Nat) → Text → Option (Text × Text)
  | _, [] => none
  | depth, c :: t =>
      if c = ')' then
        match depth with
        | 0 => some ([], t)
        | depth + 1 => (closeGroup depth t).map fun (inside, rest) => (c :: inside, rest)
      else
        (closeGroup (if c = '(' then depth + 1 else depth) t).map
          fun (inside, rest) => (c :: inside, rest)

/-- The inside of the first parenthesis group and the text after it, both stripped. Without a
parenthesis the inside is empty and the rest is the whole text; a group that is never closed
leaves both empty. -/
def parenGroup (t : Text) : Text × Text :=
  match cutAt '(' t with
  | none => ([], strip t)
  | some (_, afterOpen) =>
      match closeGroup 0 afterOpen with
      | some (inside, rest) => (strip inside, strip rest)
      | none => ([], [])

end Flowchart.Source
