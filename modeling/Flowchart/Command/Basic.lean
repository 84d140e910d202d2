import Flowchart.Direction

/-!
# Commands and their options

The commands of the command line, the options that each of them takes, and the call that a
command and its options make.
-/

set_option autoImplicit false

namespace Flowchart

open Text

inductive Command where
  | mermaid
  /-- Write a source text as the document of its flow graph. -/
  | json
  /-- Print the flow graph of a source text as tables. -/
  | table
  | validate
deriving DecidableEq, Repr

namespace Command

def name : Command → Text
  | mermaid => "mermaid".toList
  | json => "json".toList
  | table => "table".toList
  | validate => "validate".toList

def about : Command → Text
  | mermaid => "Write a Mermaid flowchart".toList
  | json => "Write the flow graph as JSON".toList
  | table => "Print the flow graph as markdown tables".toList
  | validate => "Validate Mermaid flowchart text".toList

/-- The commands, in the order in which they are listed. -/
def all : List Command := [mermaid, json, table, validate]

def ofName? (t : Text) : Option Command := all.find? fun command => command.name = t

end Command

/-! ## Options -/

inductive Given where
  /-- The file to read; none if the path is empty. -/
  | input (path : Text)
  | stdin
  /-- The file to write; none if the path is empty. -/
  | output (path : Text)
  | fenced
  /-- The direction to draw in, or that none is asked for. -/
  | direction (direction : Option Direction)
  /-- The name of the source; none if it is empty. -/
  | name (name : Text)
  | json
  /-- To have the syntax tool check the flowchart. -/
  | tool
deriving DecidableEq, Repr

inductive Slot where
  | input
  | output
  | direction
  | name
deriving DecidableEq, Repr

inductive Flag where
  /-- It prints the help and ends the run. -/
  | help
  | tell (given : Given)
deriving DecidableEq, Repr

inductive Effect where
  | flag (flag : Flag)
  | value (slot : Slot)
deriving DecidableEq, Repr

/-- An option: the names that it is given by, what it does and what the help says about it. -/
structure Switch where
  names : List Text
  effect : Effect
  about : Text
deriving DecidableEq, Repr

/-- The option that every list of options begins with. -/
def helpSwitch : Switch :=
  ⟨["-h".toList, "--help".toList], .flag .help, "show this help message and exit".toList⟩

def inputSwitches : List Switch :=
  [⟨["--input".toList, "-i".toList], .value .input, "Input source file".toList⟩,
   ⟨["--stdin".toList], .flag (.tell .stdin), "Read from stdin".toList⟩]

def outputSwitch (about : Text) : Switch :=
  ⟨["--output".toList, "-o".toList], .value .output, about⟩

def Command.switches (command : Command) : List Switch :=
  helpSwitch :: inputSwitches ++
    match command with
    | mermaid =>
        [outputSwitch "Output file (default: stdout)".toList,
         ⟨["--fenced".toList], .flag (.tell .fenced), "Wrap in a ```mermaid fence".toList⟩,
         ⟨["--direction".toList], .value .direction,
          "Flow direction (default: from env, TD)".toList⟩]
    | json => [outputSwitch "Output .flow.json (default: stdout)".toList]
    | table => [⟨["--name".toList], .value .name, "Source name for heading".toList⟩]
    | validate =>
        [⟨["--json".toList], .flag (.tell .json), "Output result as JSON".toList⟩,
         ⟨["--mmdc".toList], .flag (.tell .tool), "Also run the Mermaid CLI syntax check".toList⟩]

/-! ## Calls -/

inductive Task where
  | mermaid (output : Option Text) (fenced : Bool) (direction : Option Direction)
  | json (output : Option Text)
  | table (name : Text)
  | validate (asDocument useTool : Bool)
deriving DecidableEq, Repr

/-- The path of the file to write. -/
def Task.output : Task → Option Text
  | .mermaid output _ _ => output
  | .json output => output
  | _ => none

/-- A call: where the text comes from, and what is to be done with it. -/
structure Call where
  input : Option Text := none
  stdin : Bool := false
  task : Task
deriving DecidableEq, Repr

/-- The task of a command that has been told nothing. -/
def Command.task : Command → Task
  | mermaid => .mermaid none false none
  | json => .json none
  | table => .table []
  | validate => .validate false false

/-- The task with what an option tells; what is no part of it changes nothing. -/
def Task.tell : Task → Given → Task
  | .mermaid _ fenced direction, .output path => .mermaid (some path) fenced direction
  | .mermaid output _ direction, .fenced => .mermaid output true direction
  | .mermaid output fenced _, .direction direction => .mermaid output fenced direction
  | .json _, .output path => .json (some path)
  | .table _, .name name => .table name
  | .validate _ useTool, .json => .validate true useTool
  | .validate asDocument _, .tool => .validate asDocument true
  | task, _ => task

def Call.tell (call : Call) : Given → Call
  | .input path => { call with input := some path }
  | .stdin => { call with stdin := true }
  | given => { call with task := call.task.tell given }

/-- The call of a command with what its options tell, the last one told counting. -/
def Command.call (command : Command) (given : List Given) : Call :=
  given.foldl Call.tell { task := command.task }

end Flowchart
