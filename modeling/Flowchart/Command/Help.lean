import Flowchart.Command.Basic

/-!
# The help of the command line

`usage` shows on few lines how the program, or one of its commands, is called; `help` adds what
each command and each option is for. Both are made from the tables of commands and options, and
fit on a terminal of 80 columns.
-/

set_option autoImplicit false

namespace Flowchart.Help

open Text

/-- The name of the program, with the command if one is meant. -/
def programName : Option Command → Text
  | none => "flowgraph".toList
  | some command => "flowgraph ".toList ++ command.name

/-- The options of the program itself, or of a command. -/
def switchesOf : Option Command → List Switch
  | none => [helpSwitch]
  | some command => command.switches

/-! ## Words -/

/-- Names between braces, one of which is to be chosen. -/
def choice (names : List Text) : Text := '\x7b' :: join [','] names ++ ['\x7d']

/-- A value as it shows behind the name of its option. -/
def slotWord : Slot → Text
  | .input => "INPUT".toList
  | .output => "OUTPUT".toList
  | .direction => choice (Direction.all.map Direction.name)
  | .name => "NAME".toList

/-- A name of an option, with the word for its value if it takes one. -/
def nameWithValue (switch : Switch) (name : Text) : Text :=
  match switch.effect with
  | .value slot => name ++ [' '] ++ slotWord slot
  | _ => name

/-- The word for the command that is to be chosen. -/
def commandWord : Text := choice (Command.all.map Command.name)

/-! ## Lines -/

def lineWidth : Nat := 78

/-- The column at which the second part of a row begins. -/
def aboutColumn : Nat := 24

def spaces (n : Nat) : Text := List.replicate n ' '

/-- Words behind a line that has `used` columns, each after a space; one that does not fit begins
a new line, at the column `indent`. -/
def fill (indent : Nat) : (used : Nat) → List Text → Text
  | _, [] => []
  | used, word :: words =>
      if used + 1 + word.length ≤ lineWidth then
        ' ' :: word ++ fill indent (used + 1 + word.length) words
      else '\n' :: spaces indent ++ word ++ fill indent (indent + word.length) words

/-- A row: what something is called, and what it is for. The second part begins on a line of its
own when the first is too long. -/
def row (indent : Nat) (called about : Text) : Text :=
  let first := spaces indent ++ called
  let gap :=
    if first.length + 2 ≤ aboutColumn then spaces (aboutColumn - first.length)
    else '\n' :: spaces aboutColumn
  first ++ gap ++ about ++ ['\n']

def switchRow (switch : Switch) : Text :=
  row 2 (join ", ".toList (switch.names.map (nameWithValue switch))) switch.about

/-! ## Texts -/

/-- How the program, or a command, is called. -/
def usage (of : Option Command) : Text :=
  let start := "usage: ".toList ++ programName of
  let options := (switchesOf of).map fun switch =>
    '[' :: nameWithValue switch (switch.names.headD []) ++ [']']
  let words := if of.isNone then [commandWord, "...".toList] else []
  start ++ fill (start.length + 1) start.length (options ++ words) ++ ['\n']

/-- The help of the program, or of a command. -/
def help (of : Option Command) : Text :=
  let commands :=
    "\nConvert curly-brace source code into Mermaid flowcharts\n".toList ++
      "\npositional arguments:\n  ".toList ++ commandWord ++ ['\n'] ++
      Command.all.flatMap fun command => row 4 command.name command.about
  usage of ++ (if of.isNone then commands else []) ++ "\noptions:\n".toList ++
    (switchesOf of).flatMap switchRow

end Flowchart.Help
