import Flowchart.Proofs.Drawing.Path
import Flowchart.Proofs.Drawing.Simulation

/-!
# The graph of a program and its links

The graph of a program holds the nodes and links of the part that the program is drawn as
(`drawn_ofStatements`). No two of its nodes have the same number, so the walks through it and the
paths along the links of the part are the same (`Drawn.exists_walk`, `Drawn.path`).
-/

set_option autoImplicit false

namespace Flowchart

/-- A graph holds marks and links, the marks are numbered in order, and the links lead from mark
to mark. -/
structure Drawn (g : Graph) (marks : List Mark) (links : List Link) : Prop where
  nodes : g.nodes = marks.map Mark.node
  edges : g.edges = links.map Link.edge
  ends : ∀ link ∈ links, (∃ mark ∈ marks, link.source = .made mark) ∧
    ∃ mark ∈ marks, link.target = .made mark
  numbers : marks.map Mark.number = List.range' 1 marks.length

namespace Drawn

variable {g : Graph} {marks : List Mark} {links : List Link}

theorem node_mem (hg : Drawn g marks links) {mark : Mark} (h : mark ∈ marks) :
    mark.node ∈ g.nodes := by
  rw [hg.nodes]
  exact List.mem_map_of_mem h

theorem exists_mark (hg : Drawn g marks links) {node : Node} (h : node ∈ g.nodes) :
    ∃ mark ∈ marks, mark.node = node := by
  rw [hg.nodes] at h
  exact List.mem_map.mp h

theorem nodup_numbers (hg : Drawn g marks links) : (marks.map Mark.number).Nodup := by
  rw [hg.numbers]
  exact List.nodup_range'

theorem nodup (hg : Drawn g marks links) : marks.Nodup := hg.nodup_numbers.of_map

/-- A number is that of one mark only. -/
theorem eq_of_number_eq (hg : Drawn g marks links) {mark other : Mark} (h : mark ∈ marks)
    (h' : other ∈ marks) (hnumber : mark.number = other.number) : mark = other :=
  List.inj_on_of_nodup_map hg.nodup_numbers h h' hnumber

/-- An identifier is that of one node only. -/
theorem eq_of_id_eq (hg : Drawn g marks links) {mark other : Mark} (h : mark ∈ marks)
    (h' : other ∈ marks) (hid : mark.node.id = other.node.id) : mark = other :=
  hg.eq_of_number_eq h h' (nodeId_inj (Value.text.inj hid)).2

/-- An edge leads to the node of a mark exactly when its link leads to the mark. -/
theorem target_eq_iff (hg : Drawn g marks links) {link : Link} (hlink : link ∈ links) {mark : Mark}
    (h : mark ∈ marks) : link.edge.target = mark.node.id ↔ link.target = .made mark := by
  obtain ⟨_, target, htarget, ht⟩ := hg.ends link hlink
  rw [Link.edge, ht]
  constructor
  · intro hid
    rw [hg.eq_of_id_eq htarget h hid]
  · intro hmark
    rw [Vertex.made.inj hmark]
    rfl

/-- An edge leaves the node of a mark exactly when its link leaves the mark. -/
theorem source_eq_iff (hg : Drawn g marks links) {link : Link} (hlink : link ∈ links) {mark : Mark}
    (h : mark ∈ marks) : link.edge.source = mark.node.id ↔ link.source = .made mark := by
  obtain ⟨⟨source, hsource, hs⟩, _⟩ := hg.ends link hlink
  rw [Link.edge, hs]
  constructor
  · intro hid
    rw [hg.eq_of_id_eq hsource h hid]
  · intro hmark
    rw [Vertex.made.inj hmark]
    rfl

/-- An edge between nodes of the graph is one of the links. -/
theorem link_mem (hg : Drawn g marks links) {mark other : Mark} (h : mark ∈ marks)
    (h' : other ∈ marks) {label : Text}
    (hedge : ⟨mark.node.id, other.node.id, .text label⟩ ∈ g.edges) :
    ⟨.made mark, label, .made other⟩ ∈ links := by
  rw [hg.edges] at hedge
  obtain ⟨link, hlink, heq⟩ := List.mem_map.mp hedge
  -- The link leads from mark to mark, and the marks are known by their identifiers.
  obtain ⟨⟨source, hsource, hs⟩, target, htarget, ht⟩ := hg.ends link hlink
  obtain ⟨s, l, t⟩ := link
  simp only at hs ht
  subst hs ht
  simp only [Link.edge, Edge.mk.injEq, Value.text.injEq] at heq
  obtain ⟨hsid, htid, rfl⟩ := heq
  obtain rfl := hg.eq_of_id_eq hsource h hsid
  obtain rfl := hg.eq_of_id_eq htarget h' htid
  exact hlink

theorem edge_mem (hg : Drawn g marks links) {mark other : Mark} {label : Text}
    (h : ⟨.made mark, label, .made other⟩ ∈ links) :
    ⟨mark.node.id, other.node.id, .text label⟩ ∈ g.edges := by
  rw [hg.edges]
  exact List.mem_map_of_mem (f := Link.edge) h

/-- A path along the links is a walk through the graph. -/
theorem exists_walk (hg : Drawn g marks links) {u v : Vertex} {word : List Event}
    (h : Path links u word v) (hu : ∃ mark ∈ marks, u = .made mark) :
    ∃ trail, g.Walk u.node trail v.node ∧ reading trail = word := by
  induction h with
  | stop v =>
      obtain ⟨mark, hmark, rfl⟩ := hu
      exact ⟨[], Graph.Walk.stop (hg.node_mem hmark), rfl⟩
  | @go link word last hlink hrest ih =>
      obtain ⟨⟨source, hsource, hs⟩, target, htarget, ht⟩ := hg.ends link hlink
      obtain ⟨trail, hwalk, hreading⟩ := ih ⟨target, htarget, ht⟩
      obtain ⟨s, label, t⟩ := link
      simp only at hs ht
      subst hs ht
      refine ⟨(label, target.node) :: trail, ?_, ?_⟩
      · exact Graph.Walk.go (hg.node_mem hsource) (hg.edge_mem hlink) hwalk
      · rw [reading, hreading, Link.word, List.append_assoc]
        rfl

/-- A walk through the graph is a path along the links. -/
theorem path (hg : Drawn g marks links) {first last : Node} {trail : List (Text × Node)}
    (h : g.Walk first trail last) {u v : Mark} (hu : u ∈ marks) (hfirst : u.node = first)
    (hv : v ∈ marks) (hlast : v.node = last) :
    Path links (.made u) (reading trail) (.made v) := by
  induction h generalizing u with
  | stop hnode =>
      obtain rfl : u = v := hg.eq_of_id_eq hu hv (by rw [hfirst, hlast])
      exact Path.stop _
  | @go node next last label trail hnode hedge hrest ih =>
      obtain ⟨mark, hmark, rfl⟩ := hg.exists_mark hrest.first_mem
      subst hfirst
      have hpath := Path.go (hg.link_mem hu hmark hedge) (ih hmark rfl hlast)
      rw [Link.word, List.append_assoc] at hpath
      exact hpath

end Drawn

namespace Part

def programMarks (limit : Int) (statements : List Statement) : List Mark :=
  startMark 0 :: (block limit statements).marks 1 (startAt 0)

def programLinks (limit : Int) (statements : List Statement) : List Link :=
  (block limit statements).links 1 (startAt 0)

theorem programMarks_numbers (limit : Int) (statements : List Statement) :
    (programMarks limit statements).map Mark.number =
      List.range' 1 (programMarks limit statements).length := by
  rw [programMarks, List.map_cons, List.length_cons, length_marks, marks_numbers,
    List.range'_succ]
  rfl

theorem exit_mem_programMarks (limit : Int) (statements : List Statement) :
    ∃ mark ∈ programMarks limit statements, programExit limit statements 0 = .made mark := by
  rcases (block limit statements).touches_exit 1 (startAt 0) with h | ⟨mark, hmark, h⟩
  · exact ⟨startMark 0, List.mem_cons_self, h⟩
  · exact ⟨mark, List.mem_cons_of_mem _ hmark, h⟩

end Part

/-- The graph of a program holds the nodes and links of its part. -/
theorem drawn_ofStatements (limit : Int) (direction : Text) (statements : List Statement) :
    Drawn (Graph.ofStatements limit direction statements) (Part.programMarks limit statements)
      (Part.programLinks limit statements) := by
  refine ⟨Graph.nodes_ofStatements .., Graph.edges_ofStatements .., ?_,
    Part.programMarks_numbers limit statements⟩
  intro link hlink
  obtain ⟨hsource, target, htarget, heq⟩ := Part.ends_of_mem_links hlink
  refine ⟨?_, target, List.mem_cons_of_mem _ htarget, heq⟩
  rcases hsource with hsource | ⟨source, hmark, hsource⟩
  · exact ⟨Part.startMark 0, List.mem_cons_self, hsource⟩
  · exact ⟨source, List.mem_cons_of_mem _ hmark, hsource⟩

/-- A program is drawn to its end, which is one of its nodes. -/
theorem exists_programExit (limit : Int) (direction : Text) (statements : List Statement) :
    ∃ exit ∈ Part.programMarks limit statements,
      Part.programExit limit statements 0 = .made exit ∧
        ((Builder.new limit direction).build statements).2 =
          .ok (nodeId exit.role exit.number) := by
  obtain ⟨exit, hexit, hvertex⟩ := Part.exit_mem_programMarks limit statements
  refine ⟨exit, hexit, hvertex, ?_⟩
  rw [build_new, hvertex]
  rfl

/-! ## Raw texts -/

namespace Graph

theorem ofRaw_labelAt {g : Graph} {i : Nat} (hi : i < g.nodes.length) {label : Text}
    (h : g.nodes[i].label = .text label) : Value.ofRaw (g.labelAt i) = g.nodes[i].label := by
  rw [labelAt, List.getElem?_eq_getElem hi, Option.bind_some, h]
  exact Value.ofRaw_ofText label

/-- The graph of a text is that of the text as a raw one. -/
theorem ofRawSource_ofText (limit : Int) (direction t : Text) :
    ofRawSource limit direction (.ofText t) = ofSource limit direction t := by
  have hlabels : ∀ node ∈ (ofSource limit direction t).nodes,
      ∃ label, node.label = .text label := by
    intro node hnode
    obtain ⟨mark, -, rfl⟩ := (drawn_ofStatements _ _ _).exists_mark hnode
    exact ⟨mark.label, rfl⟩
  simp only [ofRawSource, RawText.filled_ofText, RawText.through_ofText]
  generalize ofSource limit direction t = g at hlabels
  have hnodes : (g.nodes.mapIdx fun i node => { node with label := .ofRaw (g.labelAt i) }) =
      g.nodes := by
    refine List.ext_getElem List.length_mapIdx fun i _ hi => ?_
    obtain ⟨label, hlabel⟩ := hlabels _ (List.getElem_mem hi)
    rw [List.getElem_mapIdx, ofRaw_labelAt hi hlabel]
  rw [hnodes]

end Graph

end Flowchart
