import Flowchart.Text.Basic

/-!
# Statements

The statements that source text is read as. The bodies of conditionals and loops stay lists of
source lines: they are read in turn when the statement is drawn.
-/

set_option autoImplicit false

namespace Flowchart

/-- A condition with the lines that it governs. -/
structure Arm where
  condition : Text
  body : List Text
deriving DecidableEq, Repr

/-- A statement. `line` is the source line that it begins on. -/
inductive Statement where
  | function (name line : Text)
  /-- A conditional: its first arm, the arms after further `else if`s in order, and the lines
  after the last `else`. -/
  | conditional (first : Arm) (more : List Arm) (elseBody : List Text) (line : Text)
  /-- A `for` or `while` loop. -/
  | loop (keyword condition : Text) (body : List Text) (line : Text)
  | variable (content line : Text)
  /-- A `return`, with the value it hands back. -/
  | result (value line : Text)
  | plain (content line : Text)
deriving DecidableEq, Repr

end Flowchart
