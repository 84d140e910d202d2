import Flowchart.Proofs.Graph.Additions
import Flowchart.Proofs.Mermaid.Diagram
import Mathlib.Data.List.Basic

/-!
# What a diagram keeps of its graph

The text of a graph keeps its direction, and every node and edge up to the escaping of its label:
they can be read off again, whatever the labels hold. Readers are given for the three kinds of line
(`readDirection?`, `readNode?`, `readEdge?`), each of which refuses the lines of the other kinds, so
what they find in the text of a graph is what the graph holds, in order (`nodeEntries_mermaid`,
`edgeEntries_mermaid`). Main statement: graphs with the same text agree (`mermaid_injective`).

A label ends at the first double quote behind the one that opens it, since escaping leaves none
inside, and a line ends at the first line feed for the same reason. The readers rest on nothing else
about labels, and take bars, arrows and comment marks as they come.
-/

set_option autoImplicit false

namespace Flowchart

open Text Mermaid

/-! ## Graphs whose text can be taken apart -/

/-- A text that is a word. -/
def Value.IsIdentifier (v : Value) : Prop := v = .text v.shown ∧ v.shown.IsWord

instance (v : Value) : Decidable v.IsIdentifier :=
  inferInstanceAs (Decidable (v = .text v.shown ∧ v.shown.IsWord))

/-- A graph with nodes, whose identifiers are words and whose shapes are known. Labels and direction
may be anything. -/
structure Graph.Worded (g : Graph) : Prop where
  nodes_ne_nil : g.nodes ≠ []
  ids : ∀ node ∈ g.nodes, node.id.IsIdentifier
  shapes : ∀ node ∈ g.nodes, node.shape ∈ Shape.all.map fun shape => Value.text shape.name
  ends : ∀ edge ∈ g.edges, edge.source.IsIdentifier ∧ edge.target.IsIdentifier

namespace Mermaid

/-! ## Reading lines -/

/-- What the line of a node shows. -/
structure NodeEntry where
  id : Text
  shape : Shape
  label : Text
deriving DecidableEq, Repr

/-- What the line of an edge shows. -/
structure EdgeEntry where
  source : Text
  target : Text
  label : Text
deriving DecidableEq, Repr

def readDirection? (line : Text) : Option Text := after? "flowchart ".toList line

def readNode? (line : Text) : Option NodeEntry := do
  let line ← after? "    ".toList line
  let (id, t) ← word? line
  let shape ← Shape.all.find? fun shape => startsWith (outline shape).1 t
  let t ← after? (outline shape).1 t
  let (label, _) ← cutAt '"' t
  return ⟨id, shape, label⟩

def readEdge? (line : Text) : Option EdgeEntry := do
  let line ← after? "    ".toList line
  let (source, t) ← word? line
  match after? " -->|\"".toList t with
  | some t =>
      let (label, t) ← cutAt '"' t
      let target ← after? "| ".toList t
      return ⟨source, target, label⟩
  | none =>
      let target ← after? " --> ".toList t
      return ⟨source, target, []⟩

def nodeEntries (lines : List Text) : List NodeEntry := lines.filterMap readNode?

def edgeEntries (lines : List Text) : List EdgeEntry := lines.filterMap readEdge?

end Mermaid

/-- What a diagram shows of a node. -/
def Node.entry (node : Node) : NodeEntry :=
  ⟨node.id.shown, (Shape.ofValue? node.shape).getD .rect, escapeLabel node.label⟩

/-- What a diagram shows of an edge. -/
def Edge.entry (edge : Edge) : EdgeEntry :=
  ⟨edge.source.shown, edge.target.shown, escapeLabel edge.label⟩

namespace Mermaid

theorem quote_not_mem_escapeLabel (v : Value) : '"' ∉ escapeLabel v :=
  fun h => (mem_escapeText h).2.2.2.1 rfl

/-- A label is read up to its closing quote. -/
theorem cutAt_escapeLabel (v : Value) (behind : Text) :
    cutAt '"' (escapeLabel v ++ '"' :: behind) = some (escapeLabel v, behind) :=
  cutAt_eq_some_iff.mpr ⟨rfl, quote_not_mem_escapeLabel v⟩

theorem nodeLine_eq (node : Node) :
    nodeLine node = node.id.shown ++ ((outline node.entry.shape).1 ++
      (escapeLabel node.label ++ (outline node.entry.shape).2)) := by
  simp only [nodeLine, Node.entry, List.append_assoc]

/-- A word is read up to a character outside words. -/
theorem word?_append_cons {t : Text} (ht : t.IsWord) {c : Char} (hc : isWord c = false)
    (rest : Text) : word? (t ++ c :: rest) = some (t, c :: rest) := by
  refine word?_eq_some_iff.mpr ⟨rfl, ht, ?_⟩
  rintro _ ⟨rfl⟩
  exact hc

/-- The marks before a label open with a bracket and the marks behind it with a quote. -/
theorem exists_outline (shape : Shape) :
    ∃ c before behind,
      outline shape = (c :: before, '"' :: behind) ∧ isWord c = false ∧ c ≠ ' ' := by
  cases shape with
  | round => exact ⟨'(', "(\"".toList, "))".toList, by decide⟩
  | diamond => exact ⟨'{', ['"'], ['}'], by decide⟩
  | rect => exact ⟨'[', ['"'], [']'], by decide⟩

/-- The marks before a label are those of one shape only. -/
theorem find?_outline (shape : Shape) (t : Text) :
    (Shape.all.find? fun other => startsWith (outline other).1 ((outline shape).1 ++ t)) =
      some shape := by
  cases shape with
  | round => rfl
  | diamond => rfl
  | rect => rfl

theorem readNode?_nodeLine {node : Node} (h : node.id.shown.IsWord) :
    readNode? (indented (nodeLine node)) = some node.entry := by
  obtain ⟨c, before, behind, houtline, hword, -⟩ := exists_outline node.entry.shape
  have hmarks := find?_outline node.entry.shape
    (escapeLabel node.label ++ (outline node.entry.shape).2)
  have hread : word? (nodeLine node) = some (node.id.shown, (outline node.entry.shape).1 ++
      (escapeLabel node.label ++ (outline node.entry.shape).2)) := by
    rw [nodeLine_eq, houtline]
    exact word?_append_cons h hword _
  have hlabel : cutAt '"' (escapeLabel node.label ++ (outline node.entry.shape).2) =
      some (escapeLabel node.label, behind) := by
    rw [houtline]
    exact cutAt_escapeLabel node.label behind
  rw [readNode?, indented, after?_append]
  simp only [Option.bind_eq_bind, Option.bind_some, hread, hmarks, after?_append, hlabel]
  rfl

/-- The line of a node shows no edge: a bracket stands directly behind its identifier. -/
theorem readEdge?_nodeLine {node : Node} (h : node.id.shown.IsWord) :
    readEdge? (indented (nodeLine node)) = none := by
  obtain ⟨c, before, behind, houtline, hword, hblank⟩ := exists_outline node.entry.shape
  have hread : word? (nodeLine node) =
      some (node.id.shown, c :: (before ++ (escapeLabel node.label ++ '"' :: behind))) := by
    rw [nodeLine_eq, houtline]
    exact word?_append_cons h hword _
  have hplain : ∀ t : Text, after? " --> ".toList (c :: t) = none := fun t => if_neg hblank.symm
  have hlabelled : ∀ t : Text, after? " -->|\"".toList (c :: t) = none :=
    fun t => if_neg hblank.symm
  rw [readEdge?, indented, after?_append]
  simp only [Option.bind_eq_bind, Option.bind_some, hread, hlabelled, hplain, Option.bind_none]

theorem edgeLine_of_nil {edge : Edge} (h : escapeLabel edge.label = []) :
    edgeLine edge = edge.source.shown ++ (" --> ".toList ++ edge.target.shown) := by
  simp only [edgeLine, h, List.isEmpty_nil, if_true, List.append_assoc]

theorem edgeLine_of_ne {edge : Edge} (h : escapeLabel edge.label ≠ []) :
    edgeLine edge = edge.source.shown ++ (" -->|\"".toList ++
      (escapeLabel edge.label ++ '"' :: ("| ".toList ++ edge.target.shown))) := by
  have hempty : ¬ (escapeLabel edge.label).isEmpty = true := by simpa using h
  have hquote : "\"| ".toList = '"' :: "| ".toList := by decide
  simp only [edgeLine, if_neg hempty, hquote, List.append_assoc, List.cons_append]

/-- An edge without a label has the other arrow. -/
theorem readEdge?_edgeLine {edge : Edge} (h : edge.source.shown.IsWord) :
    readEdge? (indented (edgeLine edge)) = some edge.entry := by
  have hblank : isWord ' ' = false := by decide
  rw [readEdge?, indented, after?_append]
  by_cases hlabel : escapeLabel edge.label = []
  · have hread : word? (edgeLine edge) =
        some (edge.source.shown, " --> ".toList ++ edge.target.shown) := by
      rw [edgeLine_of_nil hlabel]
      exact word?_append_cons h hblank ("--> ".toList ++ edge.target.shown)
    have hnone : after? " -->|\"".toList (" --> ".toList ++ edge.target.shown) = none := rfl
    simp only [Option.bind_eq_bind, Option.bind_some, hread, hnone, after?_append]
    rw [Edge.entry, hlabel]
    rfl
  · have hread : word? (edgeLine edge) = some (edge.source.shown, " -->|\"".toList ++
        (escapeLabel edge.label ++ '"' :: ("| ".toList ++ edge.target.shown))) := by
      rw [edgeLine_of_ne hlabel]
      exact word?_append_cons h hblank _
    simp only [Option.bind_eq_bind, Option.bind_some, hread, after?_append, cutAt_escapeLabel]
    rfl

/-- The line of an edge shows no node: a blank stands behind its first word. -/
theorem readNode?_edgeLine {edge : Edge} (h : edge.source.shown.IsWord) :
    readNode? (indented (edgeLine edge)) = none := by
  have hblank : isWord ' ' = false := by decide
  have hread : ∃ t, word? (edgeLine edge) = some (edge.source.shown, ' ' :: t) := by
    by_cases hlabel : escapeLabel edge.label = []
    · rw [edgeLine_of_nil hlabel]
      exact ⟨_, word?_append_cons h hblank ("--> ".toList ++ edge.target.shown)⟩
    · rw [edgeLine_of_ne hlabel]
      exact ⟨_, word?_append_cons h hblank ("-->|\"".toList ++ _)⟩
  obtain ⟨t, hread⟩ := hread
  have hmarks : (Shape.all.find? fun shape => startsWith (outline shape).1 (' ' :: t)) = none := rfl
  rw [readNode?, indented, after?_append]
  simp only [Option.bind_eq_bind, Option.bind_some, hread, hmarks, Option.bind_none]

/-! ## Reading diagrams -/

theorem fence_injective {s t : Text} (h : fence s = fence t) : s = t :=
  List.append_cancel_left (List.append_cancel_right h)

variable {g : Graph}

theorem mermaidLines_eq (hne : g.nodes ≠ []) :
    g.mermaidLines = ("flowchart ".toList ++ g.directionName) ::
      ((g.nodes.map fun node => indented (nodeLine node)) ++
        g.edges.map fun edge => indented (edgeLine edge)) := by
  have hempty : ¬ g.nodes.isEmpty = true := by simpa using hne
  rw [Graph.mermaidLines, if_neg hempty, List.cons_append]

/-- The lines of a graph are found again in its text. -/
theorem pieces_mermaid (hg : g.Worded) : pieces '\n' (g.mermaid false) = g.mermaidLines := by
  rw [Graph.mermaid, mermaidLines_eq hg.nodes_ne_nil]
  refine pieces_join (List.cons_ne_nil _ _) ?_
  intro line hline
  rcases List.mem_cons.mp hline with rfl | hline
  · obtain ⟨d, hd⟩ := exists_direction g
    rw [hd]
    exact (isLine_header d).noLineFeed
  · rcases List.mem_append.mp hline with hline | hline
    · obtain ⟨node, hnode, rfl⟩ := List.mem_map.mp hline
      simp [indented, (isLine_nodeLine (hg.ids node hnode).2).noLineFeed]
    · obtain ⟨edge, hedge, rfl⟩ := List.mem_map.mp hline
      obtain ⟨hsource, htarget⟩ := hg.ends edge hedge
      simp [indented, (isLine_edgeLine hsource.2 htarget.2).noLineFeed]

/-- A reader that takes every line of one kind finds what the lines were made from. -/
theorem filterMap_map_of_some {α β : Type} (read : Text → Option β) {line : α → Text}
    {entry : α → β} {items : List α} (h : ∀ a ∈ items, read (line a) = some (entry a)) :
    (items.map line).filterMap read = items.map entry := by
  rw [List.filterMap_map, ← List.filterMap_eq_map]
  exact List.filterMap_congr h

theorem filterMap_map_of_none {α β : Type} (read : Text → Option β) {line : α → Text}
    {items : List α} (h : ∀ a ∈ items, read (line a) = none) :
    (items.map line).filterMap read = [] := by
  rw [List.filterMap_map, List.filterMap_eq_nil_iff]
  exact h

/-- A header is not indented. -/
theorem after?_header (d : Text) : after? "    ".toList ("flowchart ".toList ++ d) = none := rfl

theorem nodeEntries_mermaid (hg : g.Worded) :
    nodeEntries (pieces '\n' (g.mermaid false)) = g.nodes.map Node.entry := by
  have hheader : readNode? ("flowchart ".toList ++ g.directionName) = none := by
    rw [readNode?, after?_header]
    rfl
  have hnodes := filterMap_map_of_some readNode?
    fun node hnode => readNode?_nodeLine (hg.ids node hnode).2
  have hedges := filterMap_map_of_none readNode?
    fun edge hedge => readNode?_edgeLine (hg.ends edge hedge).1.2
  rw [pieces_mermaid hg, mermaidLines_eq hg.nodes_ne_nil, nodeEntries,
    List.filterMap_cons_none hheader, List.filterMap_append, hnodes, hedges, List.append_nil]

theorem edgeEntries_mermaid (hg : g.Worded) :
    edgeEntries (pieces '\n' (g.mermaid false)) = g.edges.map Edge.entry := by
  have hheader : readEdge? ("flowchart ".toList ++ g.directionName) = none := by
    rw [readEdge?, after?_header]
    rfl
  have hnodes := filterMap_map_of_none readEdge?
    fun node hnode => readEdge?_nodeLine (hg.ids node hnode).2
  have hedges := filterMap_map_of_some readEdge?
    fun edge hedge => readEdge?_edgeLine (hg.ends edge hedge).1.2
  rw [pieces_mermaid hg, mermaidLines_eq hg.nodes_ne_nil, edgeEntries,
    List.filterMap_cons_none hheader, List.filterMap_append, hnodes, hedges, List.nil_append]

theorem readDirection?_mermaid (hg : g.Worded) :
    (pieces '\n' (g.mermaid false)).head?.bind readDirection? = some g.directionName := by
  rw [pieces_mermaid hg, mermaidLines_eq hg.nodes_ne_nil]
  exact after?_append _ _

end Mermaid

/-! ## What entries keep -/

/-- The identifier, the shape and the escaped label of a node are those of its entry. -/
theorem Node.eq_entry {node : Node} (hid : node.id.IsIdentifier)
    (hshape : node.shape ∈ Shape.all.map fun shape => Value.text shape.name) :
    (node.id, node.shape, escapeLabel node.label) =
      (Value.text node.entry.id, Value.text node.entry.shape.name, node.entry.label) := by
  have hname : node.shape = .text node.entry.shape.name := by
    obtain ⟨shape, -, hshape⟩ := List.mem_map.mp hshape
    rw [Node.entry, ← hshape, Shape.ofValue?_name, Option.getD_some]
  exact Prod.ext hid.1 (Prod.ext hname rfl)

theorem Edge.eq_entry {edge : Edge} (hsource : edge.source.IsIdentifier)
    (htarget : edge.target.IsIdentifier) :
    (edge.source, edge.target, escapeLabel edge.label) =
      (Value.text edge.entry.source, Value.text edge.entry.target, edge.entry.label) :=
  Prod.ext hsource.1 (Prod.ext htarget.1 rfl)

variable {g : Graph}

theorem nodes_eq_entries (hg : g.Worded) :
    (g.nodes.map fun node => (node.id, node.shape, escapeLabel node.label)) =
      (nodeEntries (pieces '\n' (g.mermaid false))).map
        fun entry => (Value.text entry.id, Value.text entry.shape.name, entry.label) := by
  rw [nodeEntries_mermaid hg, List.map_map]
  exact List.map_congr_left fun node hnode =>
    Node.eq_entry (hg.ids node hnode) (hg.shapes node hnode)

theorem edges_eq_entries (hg : g.Worded) :
    (g.edges.map fun edge => (edge.source, edge.target, escapeLabel edge.label)) =
      (edgeEntries (pieces '\n' (g.mermaid false))).map
        fun entry => (Value.text entry.source, Value.text entry.target, entry.label) := by
  rw [edgeEntries_mermaid hg, List.map_map]
  exact List.map_congr_left fun edge hedge =>
    Edge.eq_entry (hg.ends edge hedge).1 (hg.ends edge hedge).2

/-- Graphs with the same text agree on their direction and on all their nodes and edges, up to the
escaping of labels. -/
theorem mermaid_injective {g h : Graph} (hg : g.Worded) (hh : h.Worded) {fenced : Bool}
    (htext : g.mermaid fenced = h.mermaid fenced) :
    (g.nodes.map fun node => (node.id, node.shape, escapeLabel node.label)) =
        (h.nodes.map fun node => (node.id, node.shape, escapeLabel node.label)) ∧
      (g.edges.map fun edge => (edge.source, edge.target, escapeLabel edge.label)) =
        (h.edges.map fun edge => (edge.source, edge.target, escapeLabel edge.label)) ∧
      g.directionName = h.directionName := by
  have hsame : g.mermaid false = h.mermaid false := by
    cases fenced with
    | false => exact htext
    | true => exact fence_injective htext
  refine ⟨?_, ?_, ?_⟩
  · rw [nodes_eq_entries hg, nodes_eq_entries hh, hsame]
  · rw [edges_eq_entries hg, edges_eq_entries hh, hsame]
  · have hdirection := (readDirection?_mermaid hg).symm
    rw [hsame, readDirection?_mermaid hh] at hdirection
    exact Option.some.inj hdirection

/-- A graph whose labels look like lines of a diagram. -/
def forgedGraph (label direction : Text) : Graph where
  nodes := [⟨.text "a".toList, .text label, .text "diamond".toList⟩,
    ⟨.text "b".toList, .text "b -->|x| a".toList, .text "rect".toList⟩]
  edges := [⟨.text "a".toList, .text "b".toList, .text "yes\"| c\n    c --> a".toList⟩,
    ⟨.text "a".toList, .text "c".toList, .text "[]".toList⟩]
  direction := .text direction

/-- Labels that are escaped to the same text make no difference, and neither do unknown
directions. -/
theorem mermaid_injective_forged :
    (forgedGraph "\"x\" %%\n".toList "up".toList).Worded ∧
      (forgedGraph "'x' %%".toList "TD".toList).Worded ∧
      (forgedGraph "\"x\" %%\n".toList "up".toList).mermaid true =
        (forgedGraph "'x' %%".toList "TD".toList).mermaid true ∧
      escapeText "\"x\" %%\n".toList = escapeText "'x' %%".toList ∧
      (forgedGraph "\"x\" %%\n".toList "up".toList).directionName =
        (forgedGraph "'x' %%".toList "TD".toList).directionName := by
  have hfirst : (forgedGraph "\"x\" %%\n".toList "up".toList).Worded :=
    ⟨by decide, by decide, by decide, by decide⟩
  have hsecond : (forgedGraph "'x' %%".toList "TD".toList).Worded :=
    ⟨by decide, by decide, by decide, by decide⟩
  have htext : (forgedGraph "\"x\" %%\n".toList "up".toList).mermaid true =
      (forgedGraph "'x' %%".toList "TD".toList).mermaid true := by decide +kernel
  obtain ⟨hnodes, -, hdirection⟩ := mermaid_injective hfirst hsecond htext
  have hlabel := (Prod.mk.inj (Prod.mk.inj (List.cons.inj hnodes).1).2).2
  exact ⟨hfirst, hsecond, htext, hlabel, hdirection⟩

end Flowchart
