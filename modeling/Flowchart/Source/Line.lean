import Flowchart.Text.Basic

/-!
# Kinds of source lines

A source line is told apart by how it begins. `lineKind` tries the kinds in a fixed order and
takes the first that fits; a line that fits none is plain.
-/

set_option autoImplicit false

namespace Flowchart

/-- What a source line is, by the way it begins. -/
inductive LineKind where
  /-- A blank line, a comment, or a brace or `else` on its own. -/
  | skipped
  | function
  | conditional
  | loop
  | variable
  /-- A `return`. -/
  | result
  | plain
deriving DecidableEq, Repr

namespace Source

open Text

/-! ## How a line begins -/

/-- Whether a line is over here, but perhaps for a line feed. -/
def lineEnds (t : Text) : Bool := t.isEmpty || t == ['\n']

/-- Whether a line is blank, a comment, or a brace or `else` on its own. -/
def isSkipped (line : Text) : Bool :=
  lineEnds line || startsWith "//".toList line || startsWith "/*".toList line ||
    [['{'], ['}'], "else".toList].any fun mark => (after? mark line).any lineEnds

/-- The name of the function whose declaration the line opens: the word after `function` and at
least one blank. -/
def functionName? (line : Text) : Option Text :=
  (((after? "function".toList line).bind afterBlanks?).map (·.takeWhile isWord)).filter
    (!·.isEmpty)

/-- Whether `keyword` opens the line and a parenthesis follows, perhaps after blanks. -/
def opensGroup (keyword line : Text) : Bool :=
  (after? keyword line).any fun t => startsWith ['('] (stripLeft t)

/-- The keyword of the loop that the line opens. -/
def loopKeyword? (line : Text) : Option Text :=
  ["for".toList, "while".toList].find? (opensGroup · line)

def opensVariable (line : Text) : Bool :=
  ["let".toList, "const".toList, "var".toList].any fun keyword =>
    ((after? keyword line).bind afterBlanks?).isSome

/-- What follows the word `return` and blanks. -/
def returned? (line : Text) : Option Text :=
  (afterWord? "return".toList line).map stripLeft

/-- What follows an `else` and blanks: the rest of the line, which holds no line feed but
perhaps one at its end, and is taken without that one. -/
def elseHeader? (t : Text) : Option Text :=
  (afterWord? "else".toList t).bind fun rest => lastLine? (stripLeft rest)

def lineKind (line : Text) : LineKind :=
  if isSkipped line then .skipped
  else if (functionName? line).isSome then .function
  else if opensGroup "if".toList line then .conditional
  else if (loopKeyword? line).isSome then .loop
  else if opensVariable line then .variable
  else if (returned? line).isSome then .result
  else .plain

/-! ## What is read from a line -/

/-- The text without the blanks at its end and without one semicolon before them. -/
def stripSemicolon (t : Text) : Text :=
  let bare := stripRight t
  (before? [';'] bare).getD bare

/-- The value that a `return` line hands back; `void` when it names none. -/
def returnValue (line : Text) : Text :=
  let value := stripSemicolon ((returned? line).getD line)
  if value.isEmpty then "void".toList else value

end Source

end Flowchart
