import Flowchart.Value.Basic

/-!
# Flow graphs

A flow graph is a list of nodes and a list of edges, both in the order in which they were added,
and a direction to draw it in. The fields of nodes and edges are values, since a graph that is
read from a document keeps whatever the document holds.

`addNode` and `addEdge` check what they add: the shape is one of three, the identifier of a new
node is new, and both ends of a new edge are nodes. A refused addition gives the reason and no
graph.

A graph that is read from a document can have lists and records for identifiers and shapes. They
cannot be looked up; `edgeFault?`, `idFault?` and `shapeFault?` say what stops over them.
-/

set_option autoImplicit false

namespace Flowchart

inductive Shape where
  | round
  | diamond
  | rect
deriving DecidableEq, Repr

namespace Shape

def name : Shape → Text
  | round => "round".toList
  | diamond => "diamond".toList
  | rect => "rect".toList

def all : List Shape := [round, diamond, rect]

def ofValue? (v : Value) : Option Shape := all.find? fun shape => v = .text shape.name

end Shape

structure Node where
  id : Value
  label : Value
  shape : Value := .text Shape.rect.name
deriving DecidableEq, Repr

structure Edge where
  source : Value
  target : Value
  label : Value := .text []
deriving DecidableEq, Repr

/-- A flow graph. -/
structure Graph where
  nodes : List Node := []
  edges : List Edge := []
  direction : Value := .text "TD".toList
deriving DecidableEq, Repr

/-- Why an addition to a graph is refused. -/
inductive GraphError where
  | unknownShape (shape : Value)
  | duplicateNode (id : Value)
  | unknownSource (id : Value)
  | unknownTarget (id : Value)
deriving DecidableEq, Repr

namespace GraphError

def message : GraphError → Text
  | unknownShape shape => "Unknown node shape: ".toList ++ shape.shown
  | duplicateNode id => "Duplicate node id: ".toList ++ id.shown
  | unknownSource id => "Unknown source node: ".toList ++ id.shown
  | unknownTarget id => "Unknown target node: ".toList ++ id.shown

end GraphError

/-- A list or a record that should be looked up; the kind of it is kept. -/
structure KeyFault where
  kind : Text
deriving DecidableEq, Repr

def KeyFault.message (fault : KeyFault) : Text :=
  "unhashable type: '".toList ++ fault.kind ++ ['\'']

/-- The first of some values that cannot be looked up. -/
def firstNoKey? (vs : List Value) : Option KeyFault :=
  (vs.find? fun v => !v.isKey).map fun v => ⟨v.kindName⟩

theorem firstNoKey?_eq_none_iff {vs : List Value} :
    firstNoKey? vs = none ↔ ∀ v ∈ vs, v.isKey = true := by
  simp [firstNoKey?]

namespace Graph

/-! ## Additions -/

/-- Whether a node of the graph has the identifier. -/
def hasNode (g : Graph) (id : Value) : Bool := g.nodes.any fun node => node.id.matchesValue id

/-- The graph with one more node, behind the others. -/
def addNode (g : Graph) (node : Node) : Except GraphError Graph :=
  if (Shape.ofValue? node.shape).isNone then .error (.unknownShape node.shape)
  else if g.hasNode node.id then .error (.duplicateNode node.id)
  else .ok { g with nodes := g.nodes ++ [node] }

/-- The graph with one more edge, behind the others. -/
def addEdge (g : Graph) (edge : Edge) : Except GraphError Graph :=
  if !g.hasNode edge.source then .error (.unknownSource edge.source)
  else if !g.hasNode edge.target then .error (.unknownTarget edge.target)
  else .ok { g with edges := g.edges ++ [edge] }

/-! ## Lookups -/

/-- What keeps the identifiers of a graph from being collected. -/
def idFault? (g : Graph) : Option KeyFault := firstNoKey? (g.nodes.map (·.id))

/-- What keeps an edge from being checked. The target is not looked up behind a source that is no
node. -/
def edgeFault? (g : Graph) (edge : Edge) : Option KeyFault :=
  g.idFault? <|> firstNoKey? (edge.source :: if g.hasNode edge.source then [edge.target] else [])

/-- What keeps a graph from being drawn, and its shapes from being counted. -/
def shapeFault? (g : Graph) : Option KeyFault := firstNoKey? (g.nodes.map (·.shape))

/-- A graph whose shapes are known can be drawn. -/
theorem shapeFault?_eq_none {g : Graph}
    (h : ∀ node ∈ g.nodes, (Shape.ofValue? node.shape).isSome) : g.shapeFault? = none := by
  refine firstNoKey?_eq_none_iff.mpr fun v hv => ?_
  obtain ⟨node, hnode, rfl⟩ := List.mem_map.mp hv
  obtain ⟨shape, hshape⟩ := Option.isSome_iff_exists.mp (h node hnode)
  unfold Shape.ofValue? at hshape
  have hname := List.find?_some hshape
  rw [decide_eq_true_eq] at hname
  rw [hname]
  rfl

/-! ## Views -/

/-- The texts of the node identifiers, each once, in the order of their code points. -/
def nodeIds (g : Graph) : List Text :=
  (g.nodes.map fun node => node.id.shown).eraseDups.mergeSort fun a b =>
    !List.lex b a fun c d => decide (c.toNat < d.toNat)

/-- The tally with one more `shape`; a shape that is new comes last. -/
def tally (shape : Value) : List (Value × Nat) → List (Value × Nat)
  | [] => [(shape, 1)]
  | (known, count) :: more =>
      if known.matchesValue shape then (known, count + 1) :: more
      else (known, count) :: tally shape more

/-- How many nodes have each shape, the shapes in the order of their first nodes. -/
def shapeCounts (g : Graph) : List (Value × Nat) :=
  g.nodes.foldl (fun counts node => tally node.shape counts) []

end Graph

end Flowchart
