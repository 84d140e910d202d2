import Flowchart.Graph.Basic
import Mathlib.Computability.Language

/-!
# Walks through a flow graph

A walk goes along the edges of a graph, from one node to another. It is read as the nodes that it
passes, each with the label of the edge before it; an edge without a label says nothing. The
readings of all walks between two nodes are a language, `Graph.readings`.

`reading_injective` says that no two walks have the same reading.
-/

set_option autoImplicit false

namespace Flowchart

/-- What is read on a walk. -/
inductive Event where
  | node (node : Node)
  | answer (label : Text)
deriving DecidableEq, Repr

/-- What is read on an edge with a label. -/
def spoken (label : Text) : List Event := if label = [] then [] else [.answer label]

@[simp] theorem spoken_nil : spoken [] = [] := rfl

/-- What is read on the way from a node: the label of each edge, and the node behind it. -/
def reading : List (Text × Node) → List Event
  | [] => []
  | (label, node) :: trail => spoken label ++ .node node :: reading trail

/-- The reading tells the edges and nodes of a way apart. -/
theorem reading_injective : Function.Injective reading := by
  intro s t h
  induction s generalizing t with
  | nil =>
      cases t with
      | nil => rfl
      | cons next t => simp [reading] at h
  | cons first s ih =>
      obtain ⟨label, node⟩ := first
      cases t with
      | nil => simp [reading] at h
      | cons next t =>
          obtain ⟨label', node'⟩ := next
          by_cases hlabel : label = [] <;> by_cases hlabel' : label' = []
          · simp only [reading, spoken, hlabel, hlabel', if_true, List.nil_append, List.cons.injEq,
              Event.node.injEq] at h ⊢
            exact ⟨by rw [h.1], ih h.2⟩
          · simp [reading, spoken, hlabel, hlabel'] at h
          · simp [reading, spoken, hlabel, hlabel'] at h
          · simp only [reading, spoken, hlabel, hlabel', if_false, List.cons_append,
              List.nil_append, List.cons.injEq, Event.answer.injEq, Event.node.injEq] at h
            rw [h.1, h.2.1, ih h.2.2]

namespace Graph

/-- A walk from a node along edges to another node, with the labels of the edges and the nodes
behind them. -/
inductive Walk (g : Graph) : Node → List (Text × Node) → Node → Prop where
  | stop {node : Node} (hnode : node ∈ g.nodes) : Walk g node [] node
  | go {node next last : Node} {label : Text} {trail : List (Text × Node)} (hnode : node ∈ g.nodes)
      (hedge : ⟨node.id, next.id, .text label⟩ ∈ g.edges) (hrest : Walk g next trail last) :
      Walk g node ((label, next) :: trail) last

/-- The readings of the walks from one node to another. -/
def readings (g : Graph) (first last : Node) : Language Event :=
  {word | ∃ trail, g.Walk first trail last ∧ word = .node first :: reading trail}

theorem Walk.first_mem {g : Graph} {first last : Node} {trail : List (Text × Node)}
    (h : g.Walk first trail last) : first ∈ g.nodes := by
  cases h with
  | stop hnode => exact hnode
  | go hnode _ _ => exact hnode

theorem Walk.last_mem {g : Graph} {first last : Node} {trail : List (Text × Node)}
    (h : g.Walk first trail last) : last ∈ g.nodes := by
  induction h with
  | stop hnode => exact hnode
  | go _ _ _ ih => exact ih

end Graph

end Flowchart
