import Flowchart.Drawing.Role
import Flowchart.Source.Reading

/-!
# Builders

A builder draws statements into a graph that it keeps. Every statement hangs off the node that the
drawing has arrived at, and leaves the drawing at the node behind it. A conditional forks from a
diamond for each of its arms, and the arms are joined again, the last one first; a loop leads back
to its diamond.

Each addition is checked by the graph. When one is refused, the drawing stops there, and what was
added before stays.

Bodies are lines, which are read when they are drawn. `maxNesting` bounds how deep bodies are
read; below that each line is drawn as a plain step.

`Graph.ofStatements` is the graph of a whole program: its start node and the block behind it.
-/

set_option autoImplicit false

namespace Flowchart

/-- A graph that is being drawn. -/
structure Builder where
  graph : Graph := {}
  given : Nat := 0
  depth : Nat := 0
  /-- The labels that wait for the next edge out of a node, each with its node. -/
  waiting : List (Text × Text) := []
  /-- How many characters of a statement its label shows. -/
  limit : Int := 25
deriving DecidableEq, Repr

/-- Where a drawing goes on: the node that the next edge leaves, and the label of that edge. -/
structure Cursor (α : Type) where
  node : α
  label : Text := []
deriving DecidableEq, Repr

/-- How deep bodies are read. -/
def maxNesting : Nat := 64

/-- Drawing something: it changes a builder, and may stop because the graph refuses an addition. -/
abbrev Drawing (α : Type) := EStateM GraphError Builder α

namespace Drawing

/-! ## Additions to the graph -/

def newId (role : Role) : Drawing Text := do
  modify fun b => { b with given := b.given + 1 }
  return nodeId role (← get).given

/-- Puts an addition into effect, unless the graph refuses it. -/
def change (addition : Graph → Except GraphError Graph) : Drawing Unit := do
  match addition (← get).graph with
  | .ok graph => modify fun b => { b with graph := graph }
  | .error reason => throw reason

def addNode (role : Role) (label : Text) : Drawing Text := do
  let id ← newId role
  change (Graph.addNode · ⟨.text id, .text label, .text role.shape.name⟩)
  return id

/-- Lets a label wait for the next edge out of a node. -/
def hold (node label : Text) : Drawing Unit :=
  modify fun b =>
    { b with waiting := (node, label) :: b.waiting.filter fun entry => entry.1 ≠ node }

/-- Takes back the label that waits for the next edge out of a node; empty when none does. -/
def release (node : Text) : Drawing Text :=
  modifyGet fun b =>
    ((b.waiting.lookup node).getD [],
      { b with waiting := b.waiting.filter fun entry => entry.1 ≠ node })

/-- Adds an edge. A label that waits at its source goes before the one given here. -/
def link (source target label : Text) : Drawing Unit := do
  -- The label no longer waits, also where the graph refuses the edge.
  let held ← release source
  change (Graph.addEdge ·
    ⟨.text source, .text target, .text (if held.isEmpty then label else held)⟩)

/-- Adds a node and an edge to it from the node arrived at. -/
def append (current : Text) (role : Role) (label : Text) : Drawing Text := do
  let id ← addNode role label
  link current id []
  return id

/-! ## Statements -/

/-- Draws a plain statement; nothing for a blank one. -/
def plain (t current : Text) : Drawing Text := do
  if Text.isAllBlank t then
    return current
  append current (Role.ofStepKind (stepKind t)) (stepLabel (← get).limit t)

section Bodies

variable (body : List Text → Text → Drawing Text)

/-- Draws the lines of a branch behind a node, and gives where they arrive. The label is for the
first edge out of that node; it comes back when there is none. -/
def branch (lines : List Text) (origin label : Text) : Drawing (Cursor Text) := do
  hold origin label
  let exit ← body lines origin
  -- The label is still there when the body has drawn no edge out of `origin`.
  return ⟨exit, ← release origin⟩

/-- Draws the diamond of an arm and its branch, and gives the diamond and where the branch
arrives. -/
def arm (a : Arm) (current : Text) : Drawing (Text × Cursor Text) := do
  let diamond ← append current .conditional (conditionLabel a.condition)
  let exit ← branch body a.body diamond "Yes".toList
  return (diamond, exit)

/-- Draws further arms, each off the answer no of the one before it. Gives the last diamond, and
where the branches arrive, the last one first. -/
def furtherArms : (diamond : Text) → (exits : List (Cursor Text)) → List Arm →
    Drawing (Text × List (Cursor Text))
  | diamond, exits, [] => return (diamond, exits)
  | diamond, exits, a :: more => do
      hold diamond "No".toList
      let (next, exit) ← arm body a diamond
      -- The branch that was drawn last is joined first.
      furtherArms next (exit :: exits) more

/-- Joins each of `exits` in turn with what has been joined before. -/
def joins : (exits : List (Cursor Text)) → (joined : Cursor Text) → Drawing (Cursor Text)
  | [], joined => return joined
  | exit :: exits, joined => do
      let join ← addNode .join "End if".toList
      link exit.node join exit.label
      link joined.node join joined.label
      joins exits ⟨join, []⟩

def conditional (first : Arm) (more : List Arm) (elseBody : List Text) (current : Text) :
    Drawing Text := do
  let (diamond, exit) ← arm body first current
  let (last, exits) ← furtherArms body diamond [exit] more
  let otherwise ← branch body elseBody last "No".toList
  let joined ← joins exits otherwise
  return joined.node

def loop (keyword condition : Text) (lines : List Text) (current : Text) : Drawing Text := do
  let diamond ← append current .loop (keyword ++ ' ' :: condition)
  let exit ← body lines diamond
  link exit diamond []
  return diamond

def statement (current : Text) : Statement → Drawing Text
  | .function name _ => append current .function ("Function: ".toList ++ name)
  | .conditional first more elseBody _ => conditional body first more elseBody current
  | .loop keyword condition lines _ => loop body keyword condition lines current
  | .variable content _ => plain content current
  | .result value _ => append current .result ("Return: ".toList ++ value)
  | .plain content _ => plain content current

def block (statements : List Statement) (current : Text) : Drawing Text :=
  statements.foldlM (statement body) current

end Bodies

def plainLines (body : List Text) (current : Text) : Drawing Text :=
  body.foldlM (fun current line => plain line current) current

def inside {α : Type} (drawing : Drawing α) : Drawing α := do
  modify fun b => { b with depth := b.depth + 1 }
  try
    drawing
  finally
    modify fun b => { b with depth := b.depth - 1 }

/-- Draws the lines of a body. `room` bounds the nesting from here on: it runs out no earlier than
the depth of the builder reaches its bound. -/
def lines : (room : Nat) → List Text → Text → Drawing Text
  | 0, body, current => plainLines body current
  | room + 1, body, current => do
      -- The drawing may begin inside of a body, so `room` alone would not do.
      if maxNesting ≤ (← get).depth then
        plainLines body current
      else
        inside (block (lines room) (Source.statements body) current)

/-- Draws a start node and a block behind it. -/
def program (statements : List Statement) : Drawing Text := do
  let start ← addNode .start "Start".toList
  block (lines maxNesting) statements start

end Drawing

namespace Builder

def new (limit : Int) (direction : Text) : Builder :=
  { graph := { direction := .text direction }, limit := limit }

/-- The builder after a drawing, and what the drawing gives. -/
def perform {α : Type} (b : Builder) (drawing : Drawing α) : Builder × Except GraphError α :=
  match drawing.run b with
  | .ok result after => (after, .ok result)
  | .error reason after => (after, .error reason)

/-- Draws a block behind the node `current`, and gives the node that the drawing arrives at. -/
def block (b : Builder) (statements : List Statement) (current : Text) :
    Builder × Except GraphError Text :=
  b.perform (Drawing.block (Drawing.lines maxNesting) statements current)

/-- Draws a start node and a block behind it, and gives the node that the drawing arrives at. -/
def build (b : Builder) (statements : List Statement) : Builder × Except GraphError Text :=
  b.perform (Drawing.program statements)

end Builder

namespace Graph

/-- The graph of a program. -/
def ofStatements (limit : Int) (direction : Text) (statements : List Statement) : Graph :=
  ((Builder.new limit direction).build statements).1.graph

/-- The graph of a source text. -/
def ofSource (limit : Int) (direction : Text) (source : Text) : Graph :=
  ofStatements limit direction (Source.statementsOf source)

/-- The label of the node at an index. -/
def labelAt (g : Graph) (i : Nat) : RawText :=
  ((g.nodes[i]?).bind fun node => node.label.raw?).getD []

/-- The graph of a raw text. Its halves come out in the labels of nodes. -/
def ofRawSource (limit : Int) (direction : Text) (s : RawText) : Graph :=
  let g := ofSource limit direction s.filled
  let label (i : Nat) : RawText :=
    s.through fun shown => (ofSource limit direction shown).labelAt i
  { g with nodes := g.nodes.mapIdx fun i node => { node with label := .ofRaw (label i) } }

end Graph

end Flowchart
