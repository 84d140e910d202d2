import Flowchart.Direction
import Flowchart.Drawing.Builder
import Flowchart.Text.Lines

/-!
# Flow graphs as Mermaid text

`Graph.mermaid` writes a graph as a Mermaid flowchart: a header with the direction, a line per
node and a line per edge. Labels stand between double quotes, and `escapeText` keeps quotes,
brackets and line ends out of them.
-/

set_option autoImplicit false

namespace Flowchart

open Text

namespace Mermaid

/-! ## Labels -/

/-- Whether a character is one of the brackets that Mermaid gives a meaning. -/
def isBracket (c : Char) : Bool :=
  c == '{' || c == '}' || c == '(' || c == ')' || c == '[' || c == ']'

/-- A text that is safe inside a label: line ends become spaces, double quotes become single
ones, brackets are dropped, and the ends are stripped. -/
def escapeText (t : Text) : Text :=
  strip ((replaceChar '"' ['\''] (joinLines [' '] t)).filter fun c => !isBracket c)

def escapeLabel (v : Value) : Text := escapeText (if v.isNothing then [] else v.shown)

/-! ## Lines -/

/-- The marks before and after the label of a node. -/
def outline : Shape → Text × Text
  | .round => ("((\"".toList, "\"))".toList)
  | .diamond => (['{', '"'], ['"', '}'])
  | .rect => ("[\"".toList, "\"]".toList)

/-- The line that declares a node. A node without one of the known shapes is a rectangle. -/
def nodeLine (node : Node) : Text :=
  let (before, behind) := outline ((Shape.ofValue? node.shape).getD .rect)
  node.id.shown ++ before ++ escapeLabel node.label ++ behind

def edgeLine (edge : Edge) : Text :=
  let label := escapeLabel edge.label
  if label.isEmpty then edge.source.shown ++ " --> ".toList ++ edge.target.shown
  else edge.source.shown ++ " -->|\"".toList ++ label ++ "\"| ".toList ++ edge.target.shown

def indented (line : Text) : Text := "    ".toList ++ line

def emptyDiagram : List Text :=
  ["flowchart TD".toList, "    start((Start))".toList, "    end_node((End))".toList,
   "    start --> end_node".toList]

/-- The diagram between the marks that set it off in markdown. -/
def fence (diagram : Text) : Text := "```mermaid\n".toList ++ diagram ++ "\n```".toList

end Mermaid

namespace Graph

/-- The name of the direction that a graph is drawn in: `TD` when it names none. -/
def directionName (g : Graph) : Text :=
  match Direction.all.find? fun direction => g.direction = .text direction.name with
  | some direction => direction.name
  | none => Direction.td.name

/-- The lines of the diagram of a graph. -/
def mermaidLines (g : Graph) : List Text :=
  if g.nodes.isEmpty then Mermaid.emptyDiagram
  else
    ("flowchart ".toList ++ g.directionName) ::
      (g.nodes.map fun node => Mermaid.indented (Mermaid.nodeLine node)) ++
      g.edges.map fun edge => Mermaid.indented (Mermaid.edgeLine edge)

/-- The Mermaid text of a graph, set off in markdown if `fenced`. -/
def mermaid (g : Graph) (fenced : Bool) : Text :=
  let diagram := join ['\n'] g.mermaidLines
  if fenced then Mermaid.fence diagram else diagram

end Graph

namespace Mermaid

/-- The Mermaid text of a source text. A blank source has the diagram of an empty graph. -/
def ofSource (limit : Int) (direction : Text) (fenced : Bool) (source : Text) : Text :=
  if isAllBlank source then ({} : Graph).mermaid fenced
  else (Graph.ofSource limit direction source).mermaid fenced

/-- The Mermaid text of a raw text. -/
def ofRawSource (limit : Int) (direction : Text) (fenced : Bool) (source : RawText) : RawText :=
  source.through fun shown => .ofText (ofSource limit direction fenced shown)

theorem ofRawSource_ofText (limit : Int) (direction : Text) (fenced : Bool) (source : Text) :
    ofRawSource limit direction fenced (.ofText source) =
      .ofText (ofSource limit direction fenced source) :=
  RawText.through_ofText _ source

end Mermaid

end Flowchart
