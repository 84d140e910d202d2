import Flowchart.Graph.Basic

/-!
# Flow graphs as markdown tables

`Graph.tables` writes a heading, a line with the direction and the sizes, a table with a row per
node and a table with a row per edge. A bar inside a cell is written behind a backslash, so that
only bars without one part the cells.
-/

set_option autoImplicit false

namespace Flowchart

/-- The text of a cell: the value with a backslash before each bar. -/
def cellText (v : Value) : Text :=
  if v.isNothing then [] else Text.replaceChar '|' ['\\', '|'] v.shown

def tableRow (a b c : Value) : Text :=
  "| ".toList ++ cellText a ++ " | ".toList ++ cellText b ++ " | ".toList ++ cellText c ++
    " |".toList

namespace Graph

/-- The lines of a table: its title, its head, its rows and an empty line. -/
def tableLines (title head separator : Text) (rows : List Text) : List Text :=
  [title, [], head, separator] ++ rows ++ [[]]

/-- The lines of the tables of a graph. -/
def tableLinesOf (g : Graph) (name : Text) : List Text :=
  let heading :=
    if name.isEmpty then "#### Flowchart".toList else "#### Flowchart: ".toList ++ name
  let sizes := "**Direction:** ".toList ++ g.direction.shown ++ " | **Nodes:** ".toList ++
    Text.decimal g.nodes.length ++ " | **Edges:** ".toList ++ Text.decimal g.edges.length
  let nodeTable :=
    if g.nodes.isEmpty then []
    else tableLines "##### Nodes".toList "| ID | Label | Shape |".toList
      "|----|-------|-------|".toList (g.nodes.map fun n => tableRow n.id n.label n.shape)
  let edgeTable :=
    if g.edges.isEmpty then []
    else tableLines "##### Edges".toList "| Source | Target | Label |".toList
      "|--------|--------|-------|".toList (g.edges.map fun e => tableRow e.source e.target e.label)
  [heading, [], sizes, []] ++ nodeTable ++ edgeTable

/-- The tables of a graph, under a heading with the name of its source when that has one. -/
def tables (g : Graph) (name : Text) : Text := Text.join ['\n'] (g.tableLinesOf name)

end Graph

end Flowchart
