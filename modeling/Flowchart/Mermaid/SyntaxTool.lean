import Flowchart.Encoding.Gap
import Flowchart.Encoding.Raw
import Flowchart.Mermaid.Check

/-!
# The syntax check by an outside tool

A diagram without faults can be handed to the Mermaid command line tool: first to the one that is
installed, then, if that is not available, to the one that a package runner finds. `review` says
what comes of it. How the runs of the tool end is given from outside, one end for each run.

Trouble with the tool is no fault of the diagram: only a tool that runs and refuses the diagram
makes it invalid. But not every trouble is dealt with. The review breaks off where the diagram
cannot be written to a file, where the tool is there and cannot be started, and where what it writes
is no text.
-/

set_option autoImplicit false

namespace Flowchart.Mermaid

open Text

inductive ToolRun where
  | missing
  | timeout
  /-- It cannot be started, though it is there. -/
  | barred (reason : Text)
  /-- What it has written is no text. -/
  | garbled (gap : Encoding.Gap)
  /-- It ends with an exit code and what it has written. -/
  | finished (code : Int) (output errors : Text)
deriving DecidableEq, Repr

/-- A run that has been asked for: the command and the diagram that it is given. -/
structure ToolCall where
  command : List Text
  diagram : Text
deriving DecidableEq, Repr

/-- Why a review breaks off. -/
inductive ReviewFault where
  /-- The diagram has halves of pairs in it, and cannot be written. -/
  | unwritable (fault : Encoding.HalfFault)
  | barred (reason : Text)
  | garbled (gap : Encoding.Gap)
deriving DecidableEq, Repr

/-- What is said about a review that breaks off. -/
def ReviewFault.message : ReviewFault → Text
  | unwritable fault => fault.message
  | barred reason => reason
  | garbled gap => gap.message

inductive Finding where
  | unavailable
  | accepted
  | refused (message : Text)
deriving DecidableEq, Repr

/-- The words of messages that tell of trouble with the tool itself. -/
def troubleWords : List Text :=
  ["npm".toList, "registry".toList, "enoent".toList, "econnrefused".toList, "network".toList,
   "etimedout".toList, "err!".toList, "could not resolve".toList, "fetch failed".toList]

/-- A character in lower case, as far as it is a letter of the words looked for; the Kelvin sign
is a capital K. -/
def lowered (c : Char) : Char := if c.toNat = 0x212a then 'k' else c.toLower

/-- The message of a failed run: what it has written, stripped and cut to 500 characters. -/
def runMessage (output errors : Text) : Text :=
  let written :=
    if !errors.isEmpty then errors
    else if !output.isEmpty then output
    else "Unknown error".toList
  (strip written).take 500

/-- Whether a message tells of trouble with the tool itself. -/
def tellsOfTrouble (message : Text) : Bool :=
  troubleWords.any fun word => hasPart word (message.map lowered)

/-- What is found by a run that ends with an exit code. -/
def findingOf (code : Int) (output errors : Text) : Finding :=
  if code = 0 then .accepted
  else if tellsOfTrouble (runMessage output errors) then .unavailable
  else .refused ("mmdc validation failed: ".toList ++ runMessage output errors)

def ToolRun.finding : ToolRun → Except ReviewFault Finding
  | missing => .ok .unavailable
  | timeout => .ok .unavailable
  | barred reason => .error (.barred reason)
  | garbled gap => .error (.garbled gap)
  | finished code output errors => .ok (findingOf code output errors)

/-- The commands, in the order in which they are tried. -/
def toolCommands : List (List Text) :=
  [["mmdc".toList], ["npx".toList, "--no-install".toList, "mmdc".toList]]

/-- The arguments behind each command: the file with the diagram and the file to draw. -/
def toolArguments : List Text :=
  ["-i".toList, "IN.mmd".toList, "-o".toList, "OUT.svg".toList, "--quiet".toList]

/-- What a review finds: whether the diagram is valid, and what is said about it. -/
structure Opinion where
  isValid : Bool
  message : RawText
deriving DecidableEq, Repr

structure Review where
  outcome : Except ReviewFault Opinion
  calls : List ToolCall := []
  /-- The ends of runs that have not been used. -/
  unused : List ToolRun := []
  notices : List Text := []
deriving Repr

/-- What is said when no command is available. -/
def unavailableMessage : Text := "mmdc not available, basic validation only".toList

/-- Tries the commands on a diagram, each with the next end of a run; a run for which no end is
given finds no tool. -/
def tryCommands (diagram : Text) : List (List Text) → List ToolRun → Review
  | [], runs =>
      { outcome := .ok ⟨true, .ofText unavailableMessage⟩, unused := runs,
        notices := ["[validate] ".toList ++ unavailableMessage] }
  | command :: more, runs =>
      let call : ToolCall := ⟨command ++ toolArguments, diagram⟩
      match (runs.headD .missing).finding with
      | .error fault => { outcome := .error fault, calls := [call], unused := runs.tail }
      | .ok .accepted => { outcome := .ok ⟨true, []⟩, calls := [call], unused := runs.tail }
      | .ok (.refused message) =>
          { outcome := .ok ⟨false, .ofText message⟩, calls := [call], unused := runs.tail }
      | .ok .unavailable =>
          let later := tryCommands diagram more runs.tail
          { later with calls := call :: later.calls }

/-- What is wrong with a diagram, if anything. -/
def faultOf? (t : RawText) : Option RawText :=
  (check t.filled).map fun _ =>
    t.through fun shown => .ofText (((check shown).map (·.message)).getD [])

/-- The diagram without fences. -/
def bare (t : RawText) : RawText := t.through fun shown => .ofText (stripFences shown)

/-- Checks a diagram, and has the tool check it too if `useTool` and it has no fault. -/
def review (t : RawText) (useTool : Bool) (runs : List ToolRun) : Review :=
  match faultOf? t with
  | some message => { outcome := .ok ⟨false, message⟩, unused := runs }
  | none =>
      if useTool then
        match Encoding.wholeText (bare t) with
        | .error fault => { outcome := .error (.unwritable fault), unused := runs }
        | .ok diagram => tryCommands diagram toolCommands runs
      else { outcome := .ok ⟨true, []⟩, unused := runs }

end Flowchart.Mermaid
