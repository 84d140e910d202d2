import Flowchart.Text.Basic

/-!
# Checking Mermaid text

`check` looks for faults in the structure of a flowchart: a missing header, no content, and edges
between nodes that have not been declared above them. `tally` counts the nodes and edges of a
text.

Both see a text through `elements`: each line with content after the header is an edge, a
declaration, or neither.
-/

set_option autoImplicit false

namespace Flowchart.Mermaid

open Text

/-! ## The lines of a diagram -/

/-- The diagram without the marks that set it off in markdown, and stripped. -/
def stripFences (t : Text) : Text :=
  let bare := strip t
  let opened :=
    match after? "```mermaid".toList bare with
    | some rest => stripLeft rest
    | none => bare
  let closed :=
    match before? "```".toList opened with
    -- One line feed before the closing marks belongs to them.
    | some rest => (before? ['\n'] rest).getD rest
    | none => opened
  strip closed

/-- The stripped lines of a diagram, without blank lines and comments. -/
def contentLines (t : Text) : List Text :=
  ((pieces '\n' (stripFences t)).map strip).filter fun line =>
    !line.isEmpty && !startsWith "%%".toList line

inductive Element where
  | edge (source target : Text)
  | declaration (id : Text)
  | other
deriving DecidableEq, Repr

/-- The word that a text begins with, and what follows it. -/
def word? (t : Text) : Option (Text × Text) :=
  let word := t.takeWhile isWord
  if word.isEmpty then none else some (word, t.dropWhile isWord)

/-- What follows the label of an edge, if there is one; nothing when it does not end. -/
def afterEdgeLabel? (t : Text) : Option Text :=
  match after? ['|'] t with
  | some label => (cutAt '|' label).map (·.2)
  | none => some t

/-- The ends of the edge that a line draws. -/
def edgeEnds? (line : Text) : Option (Text × Text) := do
  let (source, t) ← word? line
  let t ← afterBlanks? t
  let t ← after? "-->".toList t
  -- A label stands directly behind the arrow.
  let t ← afterEdgeLabel? t
  let t ← afterBlanks? t
  let (target, t) ← word? t
  if isAllBlank t then some (source, target) else none

def declared? (line : Text) : Option Text := do
  let (id, t) ← word? line
  -- Blanks may stand between the identifier and its label.
  let t := stripLeft t
  if startsWith "((".toList t || startsWith ['['] t || startsWith ['{'] t then some id else none

def element (line : Text) : Element :=
  match edgeEnds? line with
  | some (source, target) => .edge source target
  | none =>
      match declared? line with
      | some id => .declaration id
      | none => .other

/-- The elements of a diagram: its lines after the header. -/
def elements (t : Text) : List Element := (contentLines t).tail.map element

/-! ## Faults -/

/-- The identifiers that edges mention before they are declared, each time that one is. -/
def earlyMentions (declared : List Text) : List Element → List Text
  | [] => []
  | .edge source target :: more =>
      [source, target].filter (fun id => !declared.contains id) ++ earlyMentions declared more
  | .declaration id :: more => earlyMentions (id :: declared) more
  | .other :: more => earlyMentions declared more

/-- The identifiers that edges mention before they are declared, each once, in the order of their
first mention. -/
def undeclared (t : Text) : List Text := (earlyMentions [] (elements t)).eraseDups

/-- What is wrong with a diagram. -/
inductive Fault where
  | blank
  | noContentLine
  /-- The first line with content is no header. -/
  | noHeader (line : Text)
  | headerOnly
  | undeclared (ids : List Text)
deriving DecidableEq, Repr

def Fault.message : Fault → Text
  | .blank => "Empty Mermaid code".toList
  | .noContentLine => "Empty Mermaid code after stripping fences".toList
  | .noHeader line => "No flowchart declaration on first line: '".toList ++ line ++ ['\'']
  | .headerOnly => "Diagram has no content (only type declaration)".toList
  | .undeclared ids => "Edges reference undeclared nodes: ".toList ++ join ", ".toList ids

/-- Whether a line is a header: its first word is `flowchart` or `graph`. -/
def isHeader (line : Text) : Bool :=
  let first := (stripLeft line).takeWhile fun c => !isBlank c
  first == "flowchart".toList || first == "graph".toList

/-- The first fault of a diagram, if it has one. -/
def check (t : Text) : Option Fault :=
  if isAllBlank t then some .blank
  else
    match contentLines t with
    | [] => some .noContentLine
    | [header] => if isHeader header then some .headerOnly else some (.noHeader header)
    | header :: _ :: _ =>
        if !isHeader header then some (.noHeader header)
        else
          match undeclared t with
          | [] => none
          | ids => some (.undeclared ids)

/-! ## Counts -/

/-- How many nodes and edges a diagram has. -/
structure Tally where
  nodes : Nat
  edges : Nat
deriving DecidableEq, Repr

def Element.ids : Element → List Text
  | .edge source target => [source, target]
  | .declaration id => [id]
  | .other => []

def Element.isEdge : Element → Bool
  | .edge _ _ => true
  | _ => false

/-- Counts the identifiers that are declared or mentioned, and the edges. -/
def tally (t : Text) : Tally :=
  ⟨((elements t).flatMap Element.ids).eraseDups.length, ((elements t).filter Element.isEdge).length⟩

end Flowchart.Mermaid
