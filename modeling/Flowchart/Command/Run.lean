import Flowchart.Command.Arguments
import Flowchart.Command.Help
import Flowchart.Graph.Record
import Flowchart.Graph.Table
import Flowchart.Mermaid.Render
import Flowchart.Mermaid.Scratch
import Flowchart.Mermaid.Verdict
import Flowchart.Settings.Loading

/-!
# Running a command

A run starts from surroundings: files, a folder to work in, variables, the bytes on standard input,
what standard input and output make of bytes and of texts, the library that loads settings files,
and how the runs of the syntax tool will end. It leaves an outcome: how it has ended, what it has
printed and said, and the files as they are then.

A run writes a file in `deliver` only; the scratch files of the syntax tool are gone when it ends,
unless the diagram to check could not be written. Arguments, variables and the names of files are
texts.
-/

set_option autoImplicit false

namespace Flowchart

open Text

/-! ## What a run starts from and what it leaves -/

/-- The raw text of bytes that have to be UTF-8; for others what is said about them. -/
def readStrictly (bytes : Bytes) : Except Text RawText :=
  match Encoding.readUtf8 bytes with
  | .ok t => .ok (.ofText t)
  | .error gap => .error gap.message

/-- What is said about a raw text that has no bytes in UTF-8. -/
def refuseHalves (s : RawText) : Option Text := (Encoding.firstHalves? s).map (·.message)

structure Surroundings where
  tree : FileTree := {}
  folder : Place := []
  vars : Variables := []
  input : Bytes := []
  /-- What the bytes on standard input are read as, or what is said when they cannot be read. That
  depends on the locale. -/
  decode : Bytes → Except Text RawText := readStrictly
  /-- What is said about a text that cannot be printed on standard output. That depends on the
  locale too. -/
  refuse : RawText → Option Text := refuseHalves
  loader : EnvLoader
  /-- How the runs of the syntax tool will end. -/
  toolRuns : List Mermaid.ToolRun := []
  /-- What each of these runs leaves in the file that it draws into, if anything. -/
  drawings : List (Option Bytes) := []
  /-- The scratch files that the tool is given. -/
  scratch : Mermaid.ScratchFiles := ⟨["tmp".toList], "flowgraph".toList⟩

/-- The workshop for the syntax tool. -/
def Surroundings.workshop (s : Surroundings) : Mermaid.Workshop :=
  { tree := s.tree, runs := s.toolRuns, drawings := s.drawings }

inductive Breakdown where
  | file (fault : FileFault)
  /-- The bytes on standard input cannot be read. -/
  | input (reason : Text)
  | settings (fault : Settings.LoadFault)
  | review (fault : Mermaid.ReviewFault)
  /-- What is to be printed cannot be printed. -/
  | output (reason : Text)
deriving DecidableEq, Repr

/-- What is said about a run that breaks off. -/
def Breakdown.message : Breakdown → Text
  | file fault => fault.message
  | input reason => reason
  | settings fault => fault.message
  | review fault => fault.message
  | output reason => reason

inductive Ending where
  | exit (code : Nat)
  | broken (breakdown : Breakdown)
deriving DecidableEq, Repr

structure Outcome where
  ending : Ending
  printed : RawText := []
  notices : RawText := []
  tree : FileTree
  calls : List Mermaid.ToolCall := []
deriving DecidableEq, Repr

def printedLines (lines : List RawText) : RawText := lines.flatMap fun line => line ++ [.char '\n']

/-- The outcome of a run that prints a text at its end. -/
def Outcome.print (outcome : Outcome) (s : Surroundings) (text : RawText) : Outcome :=
  match s.refuse text with
  | some reason => { outcome with ending := .broken (.output reason) }
  | none => { outcome with printed := printedLines [text] }

/-! ## Input -/

inductive Input where
  | text (t : RawText)
  /-- There is no input, for a reason that is told. -/
  | refused (reason : Text)
  | broken (breakdown : Breakdown)
deriving DecidableEq, Repr

/-- The text of a file. A path that leads nowhere is refused. -/
def readFile (s : Surroundings) (path : WrittenPath) : Input :=
  match s.tree.readPath s.folder path with
  | .ok bytes => .text (.ofText (FileTree.textOfBytes bytes))
  | .error (.noWay .tooLong path) => .broken (.file (.noWay .tooLong path))
  | .error (.noWay _ path) => .refused ("Error: Input file not found: ".toList ++ path.text)
  | .error fault => .broken (.file fault)

/-- Reads the input of a call: the standard input if it is asked for, else a file. -/
def Call.readInput (call : Call) (s : Surroundings) : Input :=
  if call.stdin then
    match s.decode s.input with
    | .ok t => .text (t.through fun shown => .ofText (withLineFeeds shown))
    | .error reason => .broken (.input reason)
  else
    match call.input with
    | some (c :: path) => readFile s (WrittenPath.ofText (c :: path))
    | _ => .refused "Error: Either --input or --stdin is required".toList

/-! ## Tasks -/

/-- Prints a text, or writes it to a file and says so. -/
def deliver (s : Surroundings) (said : List Text) (output : Option Text) (t : RawText)
    (confirmation : Text → Text) : Outcome :=
  let notices := said.map .ofText
  match output with
  | some (c :: path) =>
      match s.tree.writePath s.folder (WrittenPath.ofText (c :: path)) t with
      | ⟨tree, none⟩ =>
          let confirmed : RawText := .ofText ("[cli] ".toList ++ confirmation (c :: path))
          { ending := .exit 0, tree, notices := printedLines (notices ++ [confirmed]) }
      | ⟨tree, some fault⟩ =>
          { ending := .broken (.file fault), notices := printedLines notices, tree }
  | _ => Outcome.print { ending := .exit 0, notices := printedLines notices, tree := s.tree } s t

/-- The line about the size of a graph. -/
def sizeLine (g : Graph) : Text :=
  let shapes := Value.record (g.shapeCounts.map fun (shape, n) => (shape.shown, .int n))
  "[cli] ".toList ++ decimal g.nodes.length ++ " nodes, ".toList ++ decimal g.edges.length ++
    " edges, shapes=".toList ++ shapes.shown

/-- The line about a verdict on a flowchart. -/
def verdictLine (opinion : Mermaid.Opinion) (tally : Mermaid.Tally) : RawText :=
  if opinion.isValid then
    .ofText ("VALID (".toList ++ decimal tally.nodes ++ " nodes, ".toList ++ decimal tally.edges ++
      " edges)".toList)
  else .ofText "INVALID: ".toList ++ opinion.message

def runValidate (s : Surroundings) (asDocument useTool : Bool) (t : RawText) : Outcome :=
  let (review, tree) := Mermaid.reviewIn s.scratch t useTool s.workshop
  let notices := review.notices.map .ofText
  match review.outcome with
  | .error fault =>
      { ending := .broken (.review fault), notices := printedLines notices, tree,
        calls := review.calls }
  | .ok opinion =>
      let tally := Mermaid.tally t.filled
      let ending := .exit (if opinion.isValid then 0 else 1)
      if asDocument then
        Outcome.print { ending, notices := printedLines notices, tree, calls := review.calls } s
          (.ofText (opinion.toValue tally).document)
      else
        { ending, notices := printedLines (notices ++ [verdictLine opinion tally]), tree,
          calls := review.calls }

/-- The name of a source: the one that is given, else that of its file. -/
def sourceName (given : Text) (input : Option Text) : Text :=
  if !given.isEmpty then given
  else
    match input with
    | some (c :: path) => (WrittenPath.ofText (c :: path)).stem
    | _ => []

/-- Does what a call asks for with a text. -/
def Call.perform (call : Call) (s : Surroundings) (settings : Settings) (t : RawText) : Outcome :=
  let graph := Graph.ofRawSource settings.labelLimit settings.direction.name t
  match call.task with
  | .validate asDocument useTool => runValidate s asDocument (useTool || settings.useTool) t
  | .mermaid output fenced direction =>
      let diagram :=
        Mermaid.ofRawSource settings.labelLimit (direction.getD settings.direction).name fenced t
      deliver s [] output diagram fun path => "Written to ".toList ++ (WrittenPath.ofText path).text
  | .json output =>
      deliver s [sizeLine graph] output (.ofText graph.document) fun path =>
        "Flow graph written to ".toList ++ path
  | .table name =>
      let tables := t.through fun shown =>
        .ofText ((Graph.ofSource settings.labelLimit settings.direction.name shown).tables
          (sourceName name call.input))
      deliver s [sizeLine graph] none tables id

/-! ## Runs -/

/-- Runs a call: the input is read before the settings, and both before anything is done. -/
def Call.run (call : Call) (s : Surroundings) : Outcome :=
  match call.readInput s with
  | .refused reason =>
      { ending := .exit 1, notices := printedLines [.ofText reason], tree := s.tree }
  | .broken breakdown => { ending := .broken breakdown, tree := s.tree }
  | .text t =>
      match Settings.load s.loader s.tree s.folder s.vars with
      | .error fault => { ending := .broken (.settings fault), tree := s.tree }
      | .ok settings => call.perform s settings t

/-- What is said about arguments that are refused. -/
def refusal (of : Option Command) (fault : ArgumentFault) : Text :=
  Help.usage of ++ Help.programName of ++ ": error: ".toList ++ fault.message ++ ['\n']

def run (s : Surroundings) (arguments : List Text) : Outcome :=
  match Call.ofArguments arguments with
  | .error (.help of) =>
      { ending := .exit 0, printed := .ofText (Help.help of), tree := s.tree }
  | .error (.refused of fault) =>
      { ending := .exit 2, notices := .ofText (refusal of fault), tree := s.tree }
  | .ok call => call.run s

end Flowchart
