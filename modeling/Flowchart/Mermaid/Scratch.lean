import Flowchart.Files.Tree
import Flowchart.Mermaid.SyntaxTool

/-!
# The syntax tool and its files

The tool reads a diagram from a file and draws it into another one. Both are scratch files: they are
made for one check and removed after it, however the runs of the tool end. `reviewOn` checks a
diagram so, in a workshop that keeps the files and counts the runs.

A run of the tool can break off. Every attempt deals with a tool that is not there or takes too
long; other faults end the check. So does a diagram with halves of pairs, which cannot be written:
its file has been made by then, and is not among what is removed.
-/

set_option autoImplicit false

namespace Flowchart.Mermaid

open Text

/-! ## Scratch files -/

/-- The names of two scratch files in one folder: they differ in their ending only. -/
structure ScratchFiles where
  folder : Place
  stem : Text
deriving DecidableEq, Repr

namespace ScratchFiles

/-- The file that the tool reads. -/
def diagram (scratch : ScratchFiles) : Place :=
  scratch.folder ++ [scratch.stem ++ ".mmd".toList]

/-- The file that the tool draws into. -/
def drawing (scratch : ScratchFiles) : Place :=
  scratch.folder ++ [scratch.stem ++ ".svg".toList]

def places (scratch : ScratchFiles) : List Place := [scratch.diagram, scratch.drawing]

end ScratchFiles

/-! ## The workshop -/

structure Workshop where
  tree : FileTree
  /-- How the runs of the tool will end. -/
  runs : List ToolRun
  /-- What each of these runs leaves in the file that it draws into, if anything. -/
  drawings : List (Option Bytes) := []
  calls : List ToolCall := []
  notices : List Text := []
deriving DecidableEq, Repr

namespace Workshop

def write (shop : Workshop) (place : Place) (bytes : Bytes) : Workshop :=
  { shop with tree := shop.tree.writeAt place bytes }

/-- The text of a file; no text when there is no file. -/
def textAt (shop : Workshop) (place : Place) : Text :=
  Encoding.decodeUtf8Lossy ((shop.tree.read? place).getD [])

def clear (shop : Workshop) (scratch : ScratchFiles) : Workshop :=
  { shop with tree := (shop.tree.removeAt scratch.diagram).removeAt scratch.drawing }

def notify (shop : Workshop) (notice : Text) : Workshop :=
  { shop with notices := shop.notices ++ [notice] }

/-- The workshop after a run: its end is used up, and what it has drawn stands in the file for
drawings. -/
def afterRun (shop : Workshop) (scratch : ScratchFiles) (call : ToolCall) : Workshop where
  tree :=
    match shop.drawings.headD none with
    | some bytes => shop.tree.writeAt scratch.drawing bytes
    | none => shop.tree
  runs := shop.runs.tail
  drawings := shop.drawings.tail
  calls := shop.calls ++ [call]
  notices := shop.notices

end Workshop

/-! ## Attempts -/

/-- Why a run has no exit code. -/
inductive ToolFault where
  | missing
  | timeout
  /-- A fault that no attempt deals with. -/
  | other (fault : ReviewFault)
deriving DecidableEq, Repr

/-- What is done in a workshop, and may break off. -/
abbrev Trial := EStateM ReviewFault Workshop

section

variable (scratch : ScratchFiles)

/-- Runs the tool on the scratch files: its exit code, and what it has written. -/
def runTool (command : List Text) : EStateM ToolFault Workshop (Int × Text × Text) := do
  let shop ← get
  set (shop.afterRun scratch ⟨command ++ toolArguments, shop.textAt scratch.diagram⟩)
  match shop.runs.headD .missing with
  | .missing => throw .missing
  | .timeout => throw .timeout
  | .barred reason => throw (.other (.barred reason))
  | .garbled gap => throw (.other (.garbled gap))
  | .finished code output errors => return (code, output, errors)

/-- The finding of one attempt. A tool that is not there, or that takes too long, is not
available. -/
def attempt (command : List Text) : Trial Finding := fun shop =>
  match (runTool scratch command).run shop with
  | .ok (code, output, errors) after => .ok (findingOf code output errors) after
  | .error .missing after => .ok .unavailable after
  | .error .timeout after => .ok .unavailable after
  | .error (.other fault) after => .error fault after

/-- Tries the commands until one is available. -/
def attempts : List (List Text) → Trial Opinion
  | [] => do
      modify fun shop => shop.notify ("[validate] ".toList ++ unavailableMessage)
      return ⟨true, .ofText unavailableMessage⟩
  | command :: more => do
      match ← attempt scratch command with
      | .accepted => return ⟨true, []⟩
      | .refused message => return ⟨false, .ofText message⟩
      | .unavailable => attempts more

/-- Writes the file that the tool reads. It is made before there is anything to write into it. -/
def writeDiagram (s : RawText) : Trial PUnit := do
  modify fun shop => shop.write scratch.diagram []
  match Encoding.writeUtf8 s with
  | .error fault => throw (.unwritable fault)
  | .ok bytes => modify fun shop => shop.write scratch.diagram bytes

/-- Has the tool check a diagram, and removes the scratch files. -/
def reviewByTool (t : RawText) : Trial Opinion := do
  writeDiagram scratch (bare t)
  try
    attempts scratch toolCommands
  finally
    modify fun shop => shop.clear scratch

/-- Checks a diagram, and has the tool check it too if `useTool` and it has no fault. -/
def reviewOn (t : RawText) (useTool : Bool) : Trial Opinion :=
  match faultOf? t with
  | some message => return ⟨false, message⟩
  | none => if useTool then reviewByTool scratch t else return ⟨true, []⟩

/-- The review of a diagram in a workshop, and the files after it. -/
def reviewIn (t : RawText) (useTool : Bool) (shop : Workshop) : Review × FileTree :=
  match (reviewOn scratch t useTool).run shop with
  | .ok opinion after => (⟨.ok opinion, after.calls, after.runs, after.notices⟩, after.tree)
  | .error fault after => (⟨.error fault, after.calls, after.runs, after.notices⟩, after.tree)

end

end Flowchart.Mermaid
