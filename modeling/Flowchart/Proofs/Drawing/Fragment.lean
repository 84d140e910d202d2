import Flowchart.Proofs.Drawing.Entry
import Flowchart.Proofs.Drawing.Invariant

/-!
# Fragments

What a block appends to a graph is the same wherever it is drawn, up to the names of the nodes.
Main statement: `block_relocated`, two builders with the same limit append fragments that differ by
a renaming only. The renaming takes the node that the one block hangs off to that of the other, and
goes from the count of the one builder on to that of the other.

A fragment is a part that has been put in a place: behind a node, and above a count
(`Part.steps_place`). So two fragments of the same statements are the same part in two places.
-/

set_option autoImplicit false

namespace Flowchart

/-! ## Places -/

/-- The node with its number counted from `base` on. -/
def Mark.place (base : Nat) (mark : Mark) : Mark := { mark with number := base + mark.number }

/-- The vertex with its number counted from `base` on; the outer vertex is `current`. -/
def Vertex.place (base : Nat) (current : Text) : Vertex → Vertex
  | outer _ => outer current
  | made mark => made (mark.place base)

def Cursor.place (base : Nat) (current : Text) (cursor : Cursor Vertex) : Cursor Vertex :=
  { cursor with node := cursor.node.place base current }

def Link.place (base : Nat) (current : Text) (link : Link) : Link :=
  { link with source := link.source.place base current, target := link.target.place base current }

def Step.place (base : Nat) (current : Text) : Step → Step
  | node mark => node (mark.place base)
  | edge link => edge (link.place base current)

namespace Step

variable (base : Nat) (current : Text)

theorem marks_place (steps : List Step) :
    marks (steps.map (Step.place base current)) = (marks steps).map (Mark.place base) := by
  induction steps with
  | nil => rfl
  | cons step steps ih =>
      cases step with
      | node mark =>
          rw [List.map_cons, place, marks_node, marks_node, List.map_cons, ih]
      | edge link =>
          rw [List.map_cons, place, marks_edge, marks_edge, ih]

theorem links_place (steps : List Step) :
    links (steps.map (Step.place base current)) = (links steps).map (Link.place base current) := by
  induction steps with
  | nil => rfl
  | cons step steps ih =>
      cases step with
      | node mark =>
          rw [List.map_cons, place, links_node, links_node, ih]
      | edge link =>
          rw [List.map_cons, place, links_edge, links_edge, List.map_cons, ih]

end Step

namespace Part

variable (base : Nat) (current : Text)

theorem joinMark_place (given : Nat) (yes no : Part) :
    joinMark (base + given) yes no = (joinMark given yes no).place base := by
  simp only [joinMark, Mark.place, Nat.add_assoc]

theorem exit_place (p : Part) (given : Nat) (cursor : Cursor Vertex) :
    p.exit (base + given) (cursor.place base current) =
      (p.exit given cursor).place base current := by
  induction p generalizing given cursor with
  | nothing => rfl
  | single role label => rfl
  | andThen first second ihFirst ihSecond =>
      rw [exit, exit, ihFirst, Nat.add_assoc, ihSecond]
  | fork label yes no _ _ =>
      rw [exit, exit, joinMark_place]
      rfl
  | repeated label body _ => rfl

/-- Drawn in another place, a part adds the same steps there. -/
theorem steps_place (p : Part) (given : Nat) (cursor : Cursor Vertex) :
    p.steps (base + given) (cursor.place base current) =
      (p.steps given cursor).map (Step.place base current) := by
  induction p generalizing given cursor with
  | nothing => rfl
  | single role label => rfl
  | andThen first second ihFirst ihSecond =>
      rw [steps, steps, List.map_append, ihFirst, exit_place, Nat.add_assoc, ihSecond]
  | fork label yes no ihYes ihNo =>
      -- The diamond is placed with the fork, and so are the cursors behind it.
      have hyesAt : yesAt (base + given) label = (yesAt given label).place base current := rfl
      have hnoAt : noAt (base + given) label = (noAt given label).place base current := rfl
      have hno : base + given + 1 + yes.size = base + (given + 1 + yes.size) := by omega
      simp only [steps]
      rw [hyesAt, hnoAt, hno, Nat.add_assoc base given 1, ihYes, ihNo, exit_place, exit_place,
        joinMark_place]
      simp only [List.map_append]
      rfl
  | repeated label body ihBody =>
      have hbodyAt : bodyAt (base + given) label = (bodyAt given label).place base current := rfl
      simp only [steps]
      rw [hbodyAt, Nat.add_assoc base given 1, ihBody, exit_place]
      simp only [List.map_append]
      rfl

/-- The nodes of a part are numbered from the count on. -/
theorem number_getElem_marks {p : Part} {given k : Nat} {cursor : Cursor Vertex}
    (h : k < (p.marks given cursor).length) : (p.marks given cursor)[k].number = given + 1 + k := by
  have hk : k < ((p.marks given cursor).map Mark.number).length := by rwa [List.length_map]
  calc (p.marks given cursor)[k].number
      = ((p.marks given cursor).map Mark.number)[k] := (List.getElem_map ..).symm
    _ = given + 1 + k := by
        simp only [p.marks_numbers, List.getElem_range', Nat.one_mul]

/-- Where a part is drawn from that has not been given a place. -/
def unplaced : Cursor Vertex := ⟨.outer [], []⟩

theorem marks_eq_place (p : Part) :
    p.marks base ⟨.outer current, []⟩ = (p.marks 0 unplaced).map (Mark.place base) := by
  rw [marks, marks, ← Step.marks_place base current, ← steps_place]
  rfl

theorem links_eq_place (p : Part) :
    p.links base ⟨.outer current, []⟩ = (p.links 0 unplaced).map (Link.place base current) := by
  rw [links, links, ← Step.links_place, ← steps_place]
  rfl

theorem exit_eq_place (p : Part) :
    p.exit base ⟨.outer current, []⟩ = (p.exit 0 unplaced).place base current := by
  rw [← exit_place]
  rfl

end Part

/-! ## Renaming -/

def Value.rename (f : Text → Text) : Value → Value
  | .text t => .text (f t)
  | v => v

def Node.rename (f : Text → Text) (node : Node) : Node := { node with id := node.id.rename f }

def Edge.rename (f : Text → Text) (edge : Edge) : Edge :=
  { edge with source := edge.source.rename f, target := edge.target.rename f }

/-- A renaming takes the node `u` to `v`, and the identifiers given out behind a count `p` to those
with the same roles behind a count `q`. -/
structure Relocates (f : Text → Text) (u v : Text) (p q : Nat) : Prop where
  current : f u = v
  given : ∀ (role : Role) (k : Nat), 0 < k → f (nodeId role (p + k)) = nodeId role (q + k)

/-- Takes `u` to `v`, and counts all other identifiers from `q` on in place of `p`. -/
def relocate (u v : Text) (p q : Nat) (id : Text) : Text :=
  if id = u then v
  else
    id.takeWhile (fun c => !c.isDigit) ++
      Text.decimal (q + (Nat.ofDigitChars 10 (id.dropWhile fun c => !c.isDigit) 0 - p))

/-- There is such a renaming when the node `u` is none of those behind the count. -/
theorem relocates {u v : Text} {p q : Nat}
    (hu : ∀ (role : Role) (k : Nat), 0 < k → nodeId role (p + k) ≠ u) :
    Relocates (relocate u v p q) u v p q where
  current := if_pos rfl
  given := by
    intro role k hk
    obtain ⟨hstem, hdecimal⟩ := takeWhile_nodeId role (p + k)
    have hnumber : Nat.ofDigitChars 10 (Text.decimal (p + k)) 0 = p + k :=
      Nat.ofDigitChars_ten_toDigits
    rw [relocate, if_neg (hu role k hk), hstem, hdecimal, hnumber, Nat.add_sub_cancel_left]
    rfl

namespace Relocates

variable {f : Text → Text} {u v : Text} {p q : Nat}

/-- A vertex that has a number, or is the outer one, is renamed from the one place to the other. -/
theorem id_place (hf : Relocates f u v p q) {x : Vertex}
    (hx : x = .outer [] ∨ 0 < x.number) : f (x.place p u).id = (x.place q v).id := by
  cases x with
  | outer id => exact hf.current
  | made mark =>
      rcases hx with hx | hx
      · cases hx
      · exact hf.given mark.role mark.number hx

theorem node_place (hf : Relocates f u v p q) {mark : Mark} (hmark : 0 < mark.number) :
    (mark.place p).node.rename f = (mark.place q).node := by
  have hid := hf.given mark.role mark.number hmark
  show (⟨.text (f (nodeId mark.role (p + mark.number))), _, _⟩ : Node) = _
  rw [hid]
  rfl

theorem edge_place (hf : Relocates f u v p q) {link : Link}
    (hsource : link.source = .outer [] ∨ 0 < link.source.number)
    (htarget : 0 < link.target.number) :
    (link.place p u).edge.rename f = (link.place q v).edge := by
  have hs := hf.id_place hsource
  have ht := hf.id_place (Or.inr htarget)
  show (⟨.text (f (link.source.place p u).id), .text (f (link.target.place p u).id), _⟩ : Edge) = _
  rw [hs, ht]
  rfl

theorem nodes_part (hf : Relocates f u v p q) (part : Part) :
    ((part.marks p ⟨.outer u, []⟩).map Mark.node).map (Node.rename f) =
      (part.marks q ⟨.outer v, []⟩).map Mark.node := by
  rw [part.marks_eq_place p u, part.marks_eq_place q v]
  simp only [List.map_map]
  refine List.map_congr_left fun mark hmark => ?_
  exact hf.node_place (Part.number_of_mem_marks hmark).1

theorem edges_part (hf : Relocates f u v p q) (part : Part) :
    ((part.links p ⟨.outer u, []⟩).map Link.edge).map (Edge.rename f) =
      (part.links q ⟨.outer v, []⟩).map Link.edge := by
  rw [part.links_eq_place p u, part.links_eq_place q v]
  simp only [List.map_map]
  refine List.map_congr_left fun link hlink => ?_
  obtain ⟨hsource, htarget⟩ := Part.numbers_of_mem_links hlink
  exact hf.edge_place (hsource.imp_right And.left) htarget.1

theorem exit_part (hf : Relocates f u v p q) (part : Part) :
    f (part.exit p ⟨.outer u, []⟩).node.id = (part.exit q ⟨.outer v, []⟩).node.id := by
  rw [part.exit_eq_place p u, part.exit_eq_place q v]
  have htouches := Part.number_of_touches (part.touches_exit 0 Part.unplaced)
  exact hf.id_place (htouches.imp_right And.left)

end Relocates

namespace Builder

/-! ## Fragments -/

/-- What drawing a block behind the node `current` appends to the graph of a builder, and where the
drawing arrives. -/
structure Appends (b : Builder) (statements : List Statement) (current : Text)
    (nodes : List Node) (edges : List Edge) (exit : Text) : Prop where
  drawn : (b.block statements current).2 = .ok exit
  /-- All nodes and edges from before stay, and the new ones come behind them. -/
  graph : (b.block statements current).1.graph =
    { b.graph with nodes := b.graph.nodes ++ nodes, edges := b.graph.edges ++ edges }
  numbered : ∀ k (h : k < nodes.length),
    ∃ role : Role, nodes[k].id = .text (nodeId role (b.given + (k + 1)))
  ends : ∀ edge ∈ edges,
    (edge.source = .text current ∨ edge.source ∈ nodes.map Node.id) ∧
      edge.target ∈ nodes.map Node.id
  /-- No edge enters a node from before. -/
  apart : ∀ edge ∈ edges, edge.target ∉ b.graph.nodes.map Node.id
  /-- One edge leaves a node from before: that from `current` to the first new node. -/
  entry : (edges.filter fun edge => edge.source ∈ b.graph.nodes.map Node.id) =
    nodes.head?.toList.map fun first => ⟨.text current, first.id, .text []⟩
  arrives : exit = current ∨ .text exit ∈ nodes.map Node.id
  nothing : nodes = [] → edges = [] ∧ exit = current

/-- No node has an identifier that has not been given out. -/
theorem Sound.not_mem_ids {b : Builder} (hb : b.Sound) {role : Role} {number : Nat}
    (h : b.given < number) : .text (nodeId role number) ∉ b.graph.nodes.map Node.id := by
  intro hmem
  obtain ⟨node, hnode, hid⟩ := List.mem_map.mp hmem
  obtain ⟨role', number', hid', hle⟩ := hb.calm.numbered node hnode
  rw [hid'] at hid
  have hnumber : number' = number := (nodeId_inj (Value.text.inj hid)).2
  omega

/-- Behind a node of its graph, a builder draws a block to the end. -/
theorem Sound.block_eq {b : Builder} (hb : b.Sound) (statements : List Statement) {current : Text}
    (hcurrent : .text current ∈ b.graph.nodes.map Node.id) :
    b.block statements current =
      (b.extend ((Part.block b.limit statements).steps b.given ⟨.outer current, []⟩),
        .ok ((Part.block b.limit statements).exit b.given ⟨.outer current, []⟩).node.id) := by
  have hhas : b.Has (.outer current) := List.mem_map.mp hcurrent
  obtain ⟨after, hafter⟩ :=
    @follow_part_ok (Part.block b.limit statements) b hb.calm.numbered b.given rfl
      ⟨.outer current, []⟩ hhas
  rw [block_perform hb.calm, followTo_eq, hafter, follow_ok hafter]

variable {b : Builder} {current : Text} {p : Part}

/-- What a part adds is among its nodes and not among those from before. -/
theorem Sound.id_mem_of_adds (hb : b.Sound) {v : Vertex}
    (h : p.Adds b.given ⟨.outer current, []⟩ v) :
    .text v.id ∈ ((p.marks b.given ⟨.outer current, []⟩).map Mark.node).map Node.id ∧
      .text v.id ∉ b.graph.nodes.map Node.id := by
  obtain ⟨mark, hmark, rfl⟩ := h
  refine ⟨?_, hb.not_mem_ids (Part.number_of_mem_marks hmark).1⟩
  rw [List.map_map]
  exact List.mem_map_of_mem (f := Node.id ∘ Mark.node) hmark

/-- Of the edges of a part, only the one that enters it leaves a node from before. -/
theorem Sound.filter_edges (hb : b.Sound) (hcurrent : .text current ∈ b.graph.nodes.map Node.id) :
    (((p.links b.given ⟨.outer current, []⟩).map Link.edge).filter
        fun edge => edge.source ∈ b.graph.nodes.map Node.id) =
      ((p.marks b.given ⟨.outer current, []⟩).map Mark.node).head?.toList.map
        fun first => ⟨.text current, first.id, .text []⟩ := by
  obtain ⟨more, hlinks, hsources⟩ := p.exists_links_eq b.given ⟨.outer current, []⟩
  have hmore : (more.map Link.edge).filter
      (fun edge => edge.source ∈ b.graph.nodes.map Node.id) = [] := by
    refine List.filter_eq_nil_iff.mpr fun edge hedge => ?_
    obtain ⟨link, hlink, rfl⟩ := List.mem_map.mp hedge
    rw [decide_eq_true_eq]
    exact (hb.id_mem_of_adds (hsources link hlink)).2
  rw [hlinks, List.map_append, List.filter_append, hmore, List.append_nil]
  cases p.marks b.given ⟨.outer current, []⟩ with
  | nil => rfl
  | cons mark marks =>
      rw [Part.entry_cons, List.map_singleton]
      exact List.filter_cons_of_pos (decide_eq_true hcurrent)

/-- A sound builder appends what the part of the block adds. -/
theorem Sound.appends (hb : b.Sound) (statements : List Statement)
    (hcurrent : .text current ∈ b.graph.nodes.map Node.id) :
    b.Appends statements current
      (((Part.block b.limit statements).marks b.given ⟨.outer current, []⟩).map Mark.node)
      (((Part.block b.limit statements).links b.given ⟨.outer current, []⟩).map Link.edge)
      ((Part.block b.limit statements).exit b.given ⟨.outer current, []⟩).node.id := by
  have hblock := hb.block_eq statements hcurrent
  generalize Part.block b.limit statements = p at hblock ⊢
  constructor
  case drawn => rw [hblock]
  case graph =>
    rw [hblock]
    rfl
  case numbered =>
    intro k hk
    rw [List.getElem_map]
    rw [List.length_map] at hk
    refine ⟨(p.marks b.given ⟨.outer current, []⟩)[k].role, ?_⟩
    rw [Nat.add_comm k 1, ← Nat.add_assoc, ← Part.number_getElem_marks hk]
    rfl
  case ends =>
    intro edge hedge
    obtain ⟨link, hlink, rfl⟩ := List.mem_map.mp hedge
    obtain ⟨hsource, htarget⟩ := Part.ends_of_mem_links hlink
    refine ⟨?_, (hb.id_mem_of_adds htarget).1⟩
    rcases hsource with hsource | hsource
    · exact Or.inl (by rw [Link.edge, hsource, Vertex.id_outer])
    · exact Or.inr (hb.id_mem_of_adds hsource).1
  case apart =>
    intro edge hedge
    obtain ⟨link, hlink, rfl⟩ := List.mem_map.mp hedge
    exact (hb.id_mem_of_adds (Part.ends_of_mem_links hlink).2).2
  case entry => exact hb.filter_edges hcurrent
  case arrives =>
    rcases p.touches_exit b.given ⟨.outer current, []⟩ with hexit | hexit
    · exact Or.inl (by rw [hexit, Vertex.id_outer])
    · exact Or.inr (hb.id_mem_of_adds hexit).1
  case nothing =>
    intro hnodes
    have hmarks := List.map_eq_nil_iff.mp hnodes
    constructor
    · rw [Part.links_of_marks_eq_nil hmarks, List.map_nil]
    · rw [Part.exit_of_marks_eq_nil hmarks, Vertex.id_outer]

/-! ## Builders reached by operations -/

theorem limit_followTo (b : Builder) (steps : List Step) (exit : Vertex) :
    (b.followTo steps exit).1.limit = b.limit := by
  rw [followTo_eq]
  cases hrun : (follow steps).run b with
  | ok _ after =>
      rw [follow_ok hrun]
      rfl
  | error reason after => exact (follow_error hrun).limit

theorem Sound.limit_operate {b : Builder} (hb : b.Sound) (operation : Operation) :
    (b.operate operation).1.limit = b.limit := by
  cases operation with
  | build statements =>
      rw [Builder.operate, build_perform hb.calm statements]
      exact b.limit_followTo _ _
  | block statements current =>
      rw [Builder.operate, block_perform hb.calm statements current]
      exact b.limit_followTo _ _

theorem Sound.limit_performAll {b : Builder} (hb : b.Sound) (operations : List Operation) :
    (b.performAll operations).limit = b.limit := by
  induction operations generalizing b with
  | nil => rfl
  | cons operation operations ih =>
      exact (ih (hb.operate operation)).trans (hb.limit_operate operation)

/-- The builder that a new one has become after operations. -/
def reached (limit : Int) (direction : Text) (operations : List Operation) : Builder :=
  (new limit direction).performAll operations

/-- A block is drawn to its end behind every node of every builder, and what it appends to two
builders with the same limit differs by a renaming. -/
theorem block_relocated (limit : Int) (direction direction' : Text)
    (operations operations' : List Operation) (statements : List Statement) {u v : Text}
    (hu : .text u ∈ (reached limit direction operations).graph.nodes.map Node.id)
    (hv : .text v ∈ (reached limit direction' operations').graph.nodes.map Node.id) :
    ∃ f : Text → Text,
      Relocates f u v (reached limit direction operations).given
          (reached limit direction' operations').given ∧
        ∃ (nodes : List Node) (edges : List Edge) (exit : Text),
          (reached limit direction operations).Appends statements u nodes edges exit ∧
            (reached limit direction' operations').Appends statements v (nodes.map (Node.rename f))
              (edges.map (Edge.rename f)) (f exit) := by
  have hb : (reached limit direction operations).Sound :=
    (sound_new limit direction).performAll operations
  have hb' : (reached limit direction' operations').Sound :=
    (sound_new limit direction').performAll operations'
  have hlimit : (reached limit direction' operations').limit =
      (reached limit direction operations).limit :=
    ((sound_new limit direction').limit_performAll operations').trans
      ((sound_new limit direction).limit_performAll operations).symm
  have hf := @relocates u v (reached limit direction operations).given
    (reached limit direction' operations').given fun role k hk hid =>
      hb.not_mem_ids (Nat.lt_add_of_pos_right hk) (hid ▸ hu)
  have happends' := hb'.appends statements hv
  rw [hlimit, ← hf.nodes_part, ← hf.edges_part, ← hf.exit_part] at happends'
  exact ⟨_, hf, _, _, _, hb.appends statements hu, happends'⟩

/-- A program, and a block that hangs off a node that is not there. -/
def refusedOperations : List Operation :=
  [.build [.result "x".toList []], .block [.plain "f()".toList []] "ret9".toList]

theorem block_relocated_refused :
    .text "start1".toList ∈ (reached 25 "TD".toList [.build []]).graph.nodes.map Node.id ∧
      .text "ret2".toList ∈ (reached 25 "LR".toList refusedOperations).graph.nodes.map Node.id ∧
      ∃ f : Text → Text,
        Relocates f "start1".toList "ret2".toList (reached 25 "TD".toList [.build []]).given
            (reached 25 "LR".toList refusedOperations).given ∧
          ∃ (nodes : List Node) (edges : List Edge) (exit : Text),
            (reached 25 "TD".toList [.build []]).Appends
                [.conditional ⟨"a".toList, ["f()".toList]⟩ [] [] []] "start1".toList
                nodes edges exit ∧
              (reached 25 "LR".toList refusedOperations).Appends
                [.conditional ⟨"a".toList, ["f()".toList]⟩ [] [] []] "ret2".toList
                (nodes.map (Node.rename f)) (edges.map (Edge.rename f)) (f exit) := by
  have hu : .text "start1".toList ∈
      (reached 25 "TD".toList [.build []]).graph.nodes.map Node.id := by decide
  have hv : .text "ret2".toList ∈
      (reached 25 "LR".toList refusedOperations).graph.nodes.map Node.id := by decide
  exact ⟨hu, hv, block_relocated 25 _ _ _ _ _ hu hv⟩

end Builder

end Flowchart
