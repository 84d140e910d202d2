import Flowchart.Proofs.Drawing.Program
import Mathlib.Algebra.Ring.Nat

/-!
# Degrees in the graph of a program

How many edges lead to a node and how many leave it is fixed by its role. Main statement:
`degrees_ofStatements`, which also counts the edges of a program from its nodes.

The law for a part is one of flow: what leaves a vertex and the exit there make up the cursor there
and what the nodes of the part at that vertex owe (`Part.departures_links`). It holds at every
vertex, so the proof needs no knowledge of which vertices are new.
-/

set_option autoImplicit false

namespace Flowchart

/-! ## Degrees and roles -/

namespace Role

/-- How many edges lead to a node with this role. -/
def inDegree : Role → Nat
  | start => 0
  | join => 2
  | loop => 2
  | _ => 1

/-- How many edges leave a node with this role, where the program goes on behind it. -/
def outDegree : Role → Nat
  | conditional => 2
  | loop => 2
  | _ => 1

end Role

/-- The identifier of a node begins with the word for the role. -/
def Node.Plays (node : Node) (role : Role) : Prop :=
  (node.id.shown.takeWhile fun c => !c.isDigit) = role.stem

instance (node : Node) (role : Role) : Decidable (node.Plays role) :=
  inferInstanceAs (Decidable (_ = _))

namespace Graph

/-- How many edges lead to a node, parallel ones counted each. -/
def inDegree (g : Graph) (node : Node) : Nat := g.edges.countP fun edge => edge.target = node.id

/-- How many edges leave a node, parallel ones counted each. -/
def outDegree (g : Graph) (node : Node) : Nat := g.edges.countP fun edge => edge.source = node.id

/-- How many nodes of a shape the counts of a graph report. -/
def reported (g : Graph) (shape : Shape) : Nat := (g.shapeCounts.lookup (.text shape.name)).getD 0

/-- How many nodes play a role. -/
def roleCount (g : Graph) (role : Role) : Nat := g.nodes.countP fun node => node.Plays role

/-! ## The counts of shapes -/

/-- One more node of a shape counts one more of that shape and leaves the others as they are. -/
theorem lookup_tally (shape : Value) (counts : List (Value × Nat)) (name : Text) :
    ((tally shape counts).lookup (.text name)).getD 0 =
      (counts.lookup (.text name)).getD 0 + if shape = .text name then 1 else 0 := by
  induction counts with
  | nil =>
      by_cases hshape : shape = .text name
      · simp [tally, hshape]
      · have hne : (Value.text name == shape) = false := by
          rw [beq_eq_false_iff_ne]
          exact fun heq => hshape heq.symm
        simp [tally, List.lookup_cons, hshape, hne]
  | cons entry counts ih =>
      obtain ⟨known, count⟩ := entry
      by_cases hknown : known = .text name
      · subst hknown
        by_cases hshape : shape = .text name
        · subst hshape
          simp [tally, Value.matchesValue]
        · have hmatch : ¬ Value.matchesValue (.text name) shape = true := by
            intro hmatch
            rw [Value.matchesValue, decide_eq_true_eq] at hmatch
            exact hshape (Value.matchesValue_text.mp (decide_eq_true hmatch.symm))
          simp [tally, hmatch, hshape]
      · -- An entry for something else is passed over, whichever of the two it is.
        have hne : (Value.text name == known) = false := by
          rw [beq_eq_false_iff_ne]
          exact fun heq => hknown heq.symm
        by_cases hmatch : known.matchesValue shape = true
        · have hshape : ¬ shape = .text name := by
            rintro rfl
            exact hknown (Value.matchesValue_text.mp hmatch)
          simp [tally, hmatch, List.lookup_cons, hne, hshape]
        · simp [tally, hmatch, List.lookup_cons, hne, ih]

/-- What the counts of a graph report of a shape is how many nodes have it. -/
theorem reported_eq (g : Graph) (shape : Shape) :
    g.reported shape = g.nodes.countP fun node => node.shape = .text shape.name := by
  have hcount : ∀ (nodes : List Node) (counts : List (Value × Nat)),
      ((nodes.foldl (fun counts node => tally node.shape counts) counts).lookup
          (.text shape.name)).getD 0 =
        (counts.lookup (.text shape.name)).getD 0 +
          nodes.countP fun node => node.shape = .text shape.name := by
    intro nodes
    induction nodes with
    | nil => intro counts; rfl
    | cons node nodes ih =>
        intro counts
        rw [List.foldl_cons, ih, lookup_tally, List.countP_cons]
        simp only [decide_eq_true_eq]
        omega
  have h := hcount g.nodes []
  rwa [List.lookup_nil, Option.getD_none, Nat.zero_add] at h

end Graph

/-! ## Counting at a vertex -/

/-- One at the vertex itself, and nothing elsewhere. -/
def here (u v : Vertex) : Nat := if u = v then 1 else 0

/-- How many links have the vertex at one of their sides, their sources or their targets. -/
def touching (side : Link → Vertex) (links : List Link) (v : Vertex) : Nat :=
  (links.map fun link => here (side link) v).sum

/-- What the marks at a vertex count for. -/
def share (worth : Role → Nat) (marks : List Mark) (v : Vertex) : Nat :=
  (marks.map fun mark => worth mark.role * here (.made mark) v).sum

section Counting

variable (side : Link → Vertex) (links more : List Link) (link : Link) (worth : Role → Nat)
  (marks others : List Mark) (mark : Mark) (v : Vertex)

@[simp] theorem touching_nil : touching side [] v = 0 := rfl

@[simp] theorem touching_cons :
    touching side (link :: links) v = here (side link) v + touching side links v := by
  simp [touching]

@[simp] theorem touching_append :
    touching side (links ++ more) v = touching side links v + touching side more v := by
  simp [touching]

@[simp] theorem share_nil : share worth [] v = 0 := rfl

@[simp] theorem share_cons :
    share worth (mark :: marks) v =
      worth mark.role * here (.made mark) v + share worth marks v := by
  simp [share]

@[simp] theorem share_append :
    share worth (marks ++ others) v = share worth marks v + share worth others v := by
  simp [share]

theorem share_of_not_mem {marks : List Mark} {mark : Mark} (h : mark ∉ marks) :
    share worth marks (.made mark) = 0 := by
  induction marks with
  | nil => rfl
  | cons first marks ih =>
      rw [List.mem_cons, not_or] at h
      have hne : ¬ Vertex.made first = .made mark := fun heq => h.1 (Vertex.made.inj heq).symm
      rw [share_cons, ih h.2, here, if_neg hne]
      omega

/-- Among marks that are all different, one counts for what its role is worth. -/
theorem share_of_mem {marks : List Mark} (hmarks : marks.Nodup) {mark : Mark} (h : mark ∈ marks) :
    share worth marks (.made mark) = worth mark.role := by
  induction marks with
  | nil => exact absurd h List.not_mem_nil
  | cons first marks ih =>
      rw [List.nodup_cons] at hmarks
      rw [share_cons]
      rcases List.mem_cons.mp h with rfl | h
      · rw [share_of_not_mem worth hmarks.1, here, if_pos rfl]
        omega
      · have hne : ¬ Vertex.made first = .made mark := by
          intro heq
          exact hmarks.1 (Vertex.made.inj heq ▸ h)
        rw [ih hmarks.2 h, here, if_neg hne]
        omega

end Counting

/-! ## Parts -/

namespace Part

variable {p : Part}

theorem inDegree_of_isStep {role : Role} (h : role.isStep = true) : role.inDegree = 1 := by
  cases role <;> first | rfl | cases h

theorem outDegree_of_isStep {role : Role} (h : role.isStep = true) : role.outDegree = 1 := by
  cases role <;> first | rfl | cases h

/-- As many links of a part lead to a vertex as its nodes there ask for. -/
theorem arrivals_links (hp : p.Proper) (given : Nat) (cursor : Cursor Vertex) (v : Vertex) :
    touching Link.target (p.links given cursor) v =
      share Role.inDegree (p.marks given cursor) v := by
  induction p generalizing given cursor with
  | nothing => rfl
  | single role label =>
      simp [inDegree_of_isStep hp]
  | andThen first second ihFirst ihSecond =>
      rw [links_andThen, marks_andThen, touching_append, share_append, ihFirst hp.1, ihSecond hp.2]
  | fork label yes no ihYes ihNo =>
      -- The join is where the two answers arrive.
      simp only [links_fork, marks_fork, touching_cons, touching_append, touching_nil, share_cons,
        share_append, share_nil, ihYes hp.1, ihNo hp.2, yesLink, noLink, forkMark, joinMark,
        Role.inDegree]
      omega
  | repeated label body ihBody =>
      simp only [links_repeated, marks_repeated, touching_cons, touching_append, touching_nil,
        share_cons, ihBody hp, backLink, loopMark, Role.inDegree]
      omega

/-- What leaves a vertex, and the exit if it is there, make up the cursor if it is there and what
the nodes there ask for. -/
theorem departures_links (hp : p.Proper) (given : Nat) (cursor : Cursor Vertex) (v : Vertex) :
    touching Link.source (p.links given cursor) v + here (p.exit given cursor).node v =
      here cursor.node v + share Role.outDegree (p.marks given cursor) v := by
  induction p generalizing given cursor with
  | nothing =>
      show 0 + here cursor.node v = here cursor.node v + 0
      omega
  | single role label =>
      simp [outDegree_of_isStep hp, exit]
  | andThen first second ihFirst ihSecond =>
      have h1 := ihFirst hp.1 given cursor
      have h2 := ihSecond hp.2 (given + first.size) (first.exit given cursor)
      simp only [links_andThen, marks_andThen, touching_append, share_append, exit]
      omega
  | fork label yes no ihYes ihNo =>
      have hyes := ihYes hp.1 (given + 1) (yesAt given label)
      have hno := ihNo hp.2 (given + 1 + yes.size) (noAt given label)
      simp only [yesAt, noAt] at hyes hno
      simp only [links_fork, marks_fork, touching_cons, touching_append, touching_nil,
        share_cons, share_append, share_nil, yesLink, noLink, exit, yesAt, noAt]
      simp only [forkMark, joinMark, Role.outDegree] at hyes hno ⊢
      omega
  | repeated label body ihBody =>
      have hbody := ihBody hp (given + 1) (bodyAt given label)
      simp only [bodyAt] at hbody
      simp only [links_repeated, marks_repeated, touching_cons, touching_append, touching_nil,
        share_cons, backLink, exit, bodyAt]
      simp only [loopMark, Role.outDegree] at hbody ⊢
      omega

/-- A part has a link for each node, and one more for each diamond. -/
theorem length_links (hp : p.Proper) (given : Nat) (cursor : Cursor Vertex) :
    (p.links given cursor).length =
      p.size + (p.marks given cursor).countP fun mark => mark.role.shape = .diamond := by
  induction p generalizing given cursor with
  | nothing => rfl
  | single role label =>
      have hshape : role.shape ≠ .diamond := by
        cases role <;> first | decide | cases hp
      simp [size, hshape]
  | andThen first second ihFirst ihSecond =>
      simp only [links_andThen, marks_andThen, List.length_append, List.countP_append, size,
        ihFirst hp.1, ihSecond hp.2]
      omega
  | fork label yes no ihYes ihNo =>
      simp only [links_fork, marks_fork, List.length_cons, List.length_append, List.length_nil,
        List.countP_cons, List.countP_append, List.countP_nil, size, ihYes hp.1, ihNo hp.2,
        forkMark, joinMark, Role.shape, decide_true, reduceCtorEq, decide_false,
        Bool.false_eq_true, if_true, if_false]
      omega
  | repeated label body ihBody =>
      simp only [links_repeated, marks_repeated, List.length_cons, List.length_append,
        List.length_nil, List.countP_cons, size, ihBody hp, loopMark, Role.shape, decide_true,
        if_true]
      omega

/-- A part has as many joins as diamonds of conditionals. -/
theorem count_joins (hp : p.Proper) (given : Nat) (cursor : Cursor Vertex) :
    ((p.marks given cursor).countP fun mark => mark.role = .join) =
      (p.marks given cursor).countP fun mark => mark.role = .conditional := by
  induction p generalizing given cursor with
  | nothing => rfl
  | single role label =>
      have hjoin : role ≠ .join := by
        rintro rfl
        cases hp
      have hconditional : role ≠ .conditional := by
        rintro rfl
        cases hp
      simp [hjoin, hconditional]
  | andThen first second ihFirst ihSecond =>
      rw [marks_andThen, List.countP_append, List.countP_append, ihFirst hp.1, ihSecond hp.2]
  | fork label yes no ihYes ihNo =>
      simp [ihYes hp.1, ihNo hp.2, forkMark, joinMark]
      omega
  | repeated label body ihBody =>
      simp [ihBody hp, loopMark]

end Part

/-! ## The graph of a program -/

theorem Mark.plays_iff {mark : Mark} {role : Role} : mark.node.Plays role ↔ mark.role = role := by
  show (nodeId mark.role mark.number).takeWhile _ = role.stem ↔ _
  rw [(takeWhile_nodeId mark.role mark.number).1]
  exact ⟨Role.stem_inj, congrArg Role.stem⟩

namespace Drawn

variable {g : Graph} {marks : List Mark} {links : List Link} {mark : Mark}

/-- The edges at the node of a mark are the links at the mark. -/
theorem countP_edges (hg : Drawn g marks links) {field : Edge → Value} {side : Link → Vertex}
    (hside : ∀ link ∈ links, field link.edge = mark.node.id ↔ side link = .made mark) :
    g.edges.countP (fun edge => field edge = mark.node.id) = touching side links (.made mark) := by
  rw [hg.edges]
  clear hg
  induction links with
  | nil => rfl
  | cons link links ih =>
      have hlink := hside link List.mem_cons_self
      rw [List.map_cons, List.countP_cons, touching_cons,
        ih fun other hother => hside other (List.mem_cons_of_mem _ hother), here]
      simp only [decide_eq_true_eq, hlink]
      omega

theorem inDegree_eq (hg : Drawn g marks links) (h : mark ∈ marks) :
    g.inDegree mark.node = touching Link.target links (.made mark) :=
  hg.countP_edges fun _ hlink => hg.target_eq_iff hlink h

theorem outDegree_eq (hg : Drawn g marks links) (h : mark ∈ marks) :
    g.outDegree mark.node = touching Link.source links (.made mark) :=
  hg.countP_edges fun _ hlink => hg.source_eq_iff hlink h

theorem roleCount_eq (hg : Drawn g marks links) (role : Role) :
    g.roleCount role = marks.countP fun mark => mark.role = role := by
  rw [Graph.roleCount, hg.nodes, List.countP_map]
  refine List.countP_congr fun mark _ => ?_
  simp only [Function.comp_apply, decide_eq_true_eq, Mark.plays_iff]

theorem reported_eq (hg : Drawn g marks links) (shape : Shape) :
    g.reported shape = marks.countP fun mark => mark.role.shape = shape := by
  have hname : ∀ s t : Shape, s.name = t.name → s = t := by
    intro s t
    cases s <;> cases t <;> decide
  rw [Graph.reported_eq, hg.nodes, List.countP_map]
  refine List.countP_congr fun mark _ => ?_
  simp only [Function.comp_apply, decide_eq_true_eq]
  exact ⟨fun heq => hname _ _ (Value.text.inj heq), fun heq => heq ▸ rfl⟩

end Drawn

/-- What is fixed about the degrees of a graph that the drawing of a program leaves at `exit`. -/
structure Graph.FixedDegrees (g : Graph) (exit : Node) : Prop where
  /-- The first node is the start node. -/
  start : ∃ node more, g.nodes = node :: more ∧ node.Plays .start
  /-- Every node has the degrees of its role, but for the exit, which one edge fewer leaves. -/
  degrees : ∀ node ∈ g.nodes, ∃ role, node.Plays role ∧ g.inDegree node = role.inDegree ∧
    g.outDegree node + (if node = exit then 1 else 0) = role.outDegree
  joins : g.roleCount .join = g.roleCount .conditional
  edges : g.edges.length + 1 = g.nodes.length + g.reported .diamond

/-- The roles of the nodes of a program fix their degrees, and the counts of its nodes fix that of
its edges. -/
theorem degrees_ofStatements (limit : Int) (direction : Text) (statements : List Statement) :
    ∃ id, ((Builder.new limit direction).build statements).2 = .ok id ∧
      ∃ exit ∈ (Graph.ofStatements limit direction statements).nodes, exit.id = .text id ∧
        (Graph.ofStatements limit direction statements).FixedDegrees exit := by
  have hg := drawn_ofStatements limit direction statements
  have hproper := Part.proper_block limit statements
  obtain ⟨exit, hexit, hvertex, hbuild⟩ := exists_programExit limit direction statements
  refine ⟨nodeId exit.role exit.number, hbuild, exit.node, hg.node_mem hexit, rfl, ?_⟩
  constructor
  case start => exact ⟨_, _, hg.nodes, Mark.plays_iff.mpr rfl⟩
  case degrees =>
    intro node hnode
    obtain ⟨mark, hmark, rfl⟩ := hg.exists_mark hnode
    refine ⟨mark.role, Mark.plays_iff.mpr rfl, ?_, ?_⟩
    · have harrivals := Part.arrivals_links hproper 1 (Part.startAt 0) (.made mark)
      have hshare := share_of_mem Role.inDegree hg.nodup hmark
      rw [hg.inDegree_eq hmark, Part.programLinks, harrivals]
      have hstart : (Part.startMark 0).role.inDegree = 0 := rfl
      rw [Part.programMarks, share_cons, hstart] at hshare
      omega
    · have hdepartures := Part.departures_links hproper 1 (Part.startAt 0) (.made mark)
      have hshare := share_of_mem Role.outDegree hg.nodup hmark
      have hhere : here (Part.programExit limit statements 0) (.made mark) =
          if mark.node = exit.node then 1 else 0 := by
        rw [hvertex, here]
        refine if_congr ⟨?_, ?_⟩ rfl rfl
        · intro heq
          rw [Vertex.made.inj heq]
        · intro heq
          rw [hg.eq_of_id_eq hexit hmark (congrArg Node.id heq).symm]
      rw [hg.outDegree_eq hmark, ← hhere, Part.programLinks, Part.programExit, hdepartures]
      have hstart : (Part.startMark 0).role.outDegree = 1 := rfl
      have hcursor : (Part.startAt 0).node = .made (Part.startMark 0) := rfl
      rw [Part.programMarks, share_cons, hstart] at hshare
      rw [hcursor]
      omega
  case joins =>
    rw [hg.roleCount_eq, hg.roleCount_eq, Part.programMarks, List.countP_cons, List.countP_cons,
      Part.count_joins hproper]
    rfl
  case edges =>
    have hlinks := Part.length_links hproper 1 (Part.startAt 0)
    rw [hg.reported_eq, hg.edges, hg.nodes, List.length_map, List.length_map, Part.programMarks,
      Part.programLinks, List.length_cons, Part.length_marks, List.countP_cons, hlinks]
    simp only [Part.startMark, Role.shape, reduceCtorEq, decide_false, Bool.false_eq_true, if_false]
    omega

end Flowchart
