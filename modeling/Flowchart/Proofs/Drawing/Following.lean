import Flowchart.Proofs.Drawing.Entry
import Flowchart.Proofs.Graph.Additions

/-!
# Following the steps of a part

`follow` adds the steps of a part to the graph of a builder, up to the first step that the graph
refuses, and `Part.draw` follows the steps of a part from wherever the count of identifiers is.
Main statements: a part made of others is drawn by drawing these one after the other
(`draw_andThen`, `draw_repeated`, `draw_fork`), and nothing of the builder changes but its graph
and its count (`follow_frame`).
-/

set_option autoImplicit false

namespace Flowchart

open Drawing

/-! ## Following steps -/

/-- Follows steps up to the first that the graph refuses. -/
def follow : List Step → Drawing Unit
  | [] => pure ()
  | .node mark :: more => do
      modify fun b => { b with given := b.given + 1 }
      change (Graph.addNode · mark.node)
      follow more
  | .edge link :: more => do
      change (Graph.addEdge · link.edge)
      follow more

/-- Draws a part by following its steps, and gives where the drawing goes on. -/
def Part.draw (p : Part) (cursor : Cursor Vertex) : Drawing (Cursor Vertex) := do
  let given := (← get).given
  follow (p.steps given cursor)
  return p.exit given cursor

/-- Two builders differ in the graph and in the count of identifiers at most. -/
structure Builder.SameFrame (before after : Builder) : Prop where
  depth : after.depth = before.depth
  waiting : after.waiting = before.waiting
  limit : after.limit = before.limit

/-- The builder with the nodes and edges of steps behind its own. -/
def Builder.extend (b : Builder) (steps : List Step) : Builder :=
  { b with
    given := b.given + (Step.marks steps).length
    graph :=
      { b.graph with
        nodes := b.graph.nodes ++ (Step.marks steps).map Mark.node
        edges := b.graph.edges ++ (Step.links steps).map Link.edge } }

/-- Every identifier of the graph has been given out. -/
def Builder.Numbered (b : Builder) : Prop :=
  ∀ node ∈ b.graph.nodes, ∃ role number,
    node.id = .text (nodeId role number) ∧ number ≤ b.given

theorem follow_append (s t : List Step) :
    follow (s ++ t) = (do follow s; follow t) := by
  induction s with
  | nil => simp [follow]
  | cons step s ih => cases step <;> simp [follow, ih]

/-- A change keeps all but the graph, and a refused one the graph too. -/
theorem change_run (addition : Graph → Except GraphError Graph) (b : Builder) :
    (change addition).run b =
      match addition b.graph with
      | .ok graph => .ok () { b with graph := graph }
      | .error reason => .error reason b := by
  simp only [change, EStateM.run_bind, EStateM.run_get]
  cases addition b.graph <;> rfl

theorem follow_node_run (mark : Mark) (more : List Step) (b : Builder) :
    (follow (.node mark :: more)).run b =
      match b.graph.addNode mark.node with
      | .ok graph => (follow more).run { b with graph := graph, given := b.given + 1 }
      | .error reason => .error reason { b with given := b.given + 1 } := by
  simp only [follow, EStateM.run_bind, EStateM.run_modify, change_run]
  cases b.graph.addNode mark.node <;> rfl

theorem follow_edge_run (link : Link) (more : List Step) (b : Builder) :
    (follow (.edge link :: more)).run b =
      match b.graph.addEdge link.edge with
      | .ok graph => (follow more).run { b with graph := graph }
      | .error reason => .error reason b := by
  simp only [follow, EStateM.run_bind, change_run]
  cases b.graph.addEdge link.edge <;> rfl

/-- Following steps adds their nodes and edges and changes nothing else. Steps that end early keep
all but the graph and the count. -/
theorem follow_frame (steps : List Step) (b : Builder) :
    match (follow steps).run b with
    | .ok _ after => after = b.extend steps
    | .error _ after => b.SameFrame after := by
  induction steps generalizing b with
  | nil =>
      show b = b.extend []
      simp [Builder.extend]
  | cons step steps ih =>
      cases step with
      | node mark =>
          rw [follow_node_run]
          cases hadd : b.graph.addNode mark.node with
          | error reason => exact ⟨rfl, rfl, rfl⟩
          | ok graph =>
              -- What is left is followed from the builder with the new node.
              have hmore := ih { b with graph := graph, given := b.given + 1 }
              simp only
              cases hrun : (follow steps).run
                  { b with graph := graph, given := b.given + 1 } with
              | error reason after =>
                  rw [hrun] at hmore
                  exact ⟨hmore.1, hmore.2, hmore.3⟩
              | ok _ after =>
                  rw [hrun] at hmore
                  simp only at hmore ⊢
                  rw [hmore, Graph.addNode_ok hadd]
                  simp only [Builder.extend, Step.marks_node, Step.links_node, List.map_cons,
                    List.length_cons, List.append_assoc, List.singleton_append, Builder.mk.injEq,
                    true_and, and_true]
                  omega
      | edge link =>
          rw [follow_edge_run]
          cases hadd : b.graph.addEdge link.edge with
          | error reason => exact ⟨rfl, rfl, rfl⟩
          | ok graph =>
              have hmore := ih { b with graph := graph }
              simp only
              cases hrun : (follow steps).run { b with graph := graph } with
              | error reason after =>
                  rw [hrun] at hmore
                  exact ⟨hmore.1, hmore.2, hmore.3⟩
              | ok _ after =>
                  rw [hrun] at hmore
                  simp only at hmore ⊢
                  rw [hmore, Graph.addEdge_ok hadd]
                  simp only [Builder.extend, Step.marks_edge, Step.links_edge, List.map_cons,
                    List.append_assoc, List.singleton_append]

theorem follow_ok {steps : List Step} {b after : Builder}
    (h : (follow steps).run b = .ok () after) : after = b.extend steps := by
  have hframe := follow_frame steps b
  rwa [h] at hframe

theorem follow_error {steps : List Step} {b after : Builder} {reason : GraphError}
    (h : (follow steps).run b = .error reason after) : b.SameFrame after := by
  have hframe := follow_frame steps b
  rwa [h] at hframe

/-- Following the steps of a part counts as many identifiers as the part has nodes. -/
theorem given_of_follow_ok {p : Part} {given : Nat} {cursor : Cursor Vertex} {b after : Builder}
    (h : (follow (p.steps given cursor)).run b = .ok () after) :
    after.given = b.given + p.size := by
  rw [follow_ok h, ← p.length_marks given cursor]
  rfl

/-! ## Drawing parts -/

/-- What is left after a part has been drawn. -/
theorem draw_ok {p : Part} {cursor exit : Cursor Vertex} {b after : Builder}
    (h : (p.draw cursor).run b = .ok exit after) :
    after = b.extend (p.steps b.given cursor) ∧ exit = p.exit b.given cursor := by
  simp only [Part.draw, EStateM.run_bind, EStateM.run_get, EStateM.run_pure] at h
  cases hrun : (follow (p.steps b.given cursor)).run b with
  | error reason b' =>
      rw [hrun] at h
      cases h
  | ok _ b' =>
      rw [hrun] at h
      cases h
      exact ⟨follow_ok hrun, rfl⟩

theorem Builder.given_extend (b : Builder) (p : Part) (cursor : Cursor Vertex) :
    (b.extend (p.steps b.given cursor)).given = b.given + p.size := by
  rw [← p.length_marks b.given cursor]
  rfl

theorem Builder.Numbered.extend {p : Part} {cursor : Cursor Vertex} {b : Builder}
    (hb : b.Numbered) : (b.extend (p.steps b.given cursor)).Numbered := by
  intro node hnode
  have hgiven := b.given_extend p cursor
  rcases List.mem_append.mp hnode with hold | hnew
  · obtain ⟨role, number, hid, hle⟩ := hb node hold
    exact ⟨role, number, hid, by omega⟩
  · obtain ⟨mark, hmark, rfl⟩ := List.mem_map.mp hnew
    have := Part.number_of_mem_marks hmark
    exact ⟨mark.role, mark.number, rfl, by omega⟩

/-- The one behind the other is drawn one after the other. -/
theorem draw_andThen (p q : Part) (cursor : Cursor Vertex) :
    (Part.andThen p q).draw cursor = (do
      let exit ← p.draw cursor
      q.draw exit) := by
  funext b
  show ((Part.andThen p q).draw cursor).run b =
    (p.draw cursor >>= fun exit => q.draw exit).run b
  simp only [Part.draw, Part.steps, Part.exit, follow_append, EStateM.run_bind, EStateM.run_get,
    EStateM.run_pure]
  cases hrun : (follow (p.steps b.given cursor)).run b with
  | error reason b' => rfl
  | ok _ b' =>
      -- The second part is drawn with the count that the first one leaves.
      simp only [given_of_follow_ok hrun]

/-- A repeated part is drawn in three: the diamond, the body, and the way back. -/
theorem draw_repeated (label : Text) (p : Part) (cursor : Cursor Vertex) :
    (Part.repeated label p).draw cursor = (do
      let diamond ← (Part.single .loop label).draw cursor
      let exit ← p.draw diamond
      follow [.edge ⟨exit.node, exit.label, diamond.node⟩]
      return diamond) := by
  funext b
  show ((Part.repeated label p).draw cursor).run b = EStateM.run (_ >>= _) b
  simp only [Part.draw, Part.steps, Part.exit, follow_append, EStateM.run_bind, EStateM.run_get,
    EStateM.run_pure, Part.loopMark, Part.bodyAt]
  cases hrun : (follow (Part.entrySteps ⟨.loop, b.given + 1, label⟩ cursor)).run b with
  | error reason b' => rfl
  | ok _ b' =>
      have hgiven : b'.given = b.given + 1 := by rw [follow_ok hrun]; rfl
      simp only [hgiven]
      cases (follow (p.steps (b.given + 1) ⟨.made ⟨.loop, b.given + 1, label⟩, []⟩)).run b' with
      | error reason b'' => rfl
      | ok _ b'' => rfl

/-- Adds the join behind the two answers of a fork. -/
def joinTogether (yes no : Cursor Vertex) : Drawing (Cursor Vertex) := do
  let join : Mark := ⟨.join, (← get).given + 1, "End if".toList⟩
  follow [.node join, .edge ⟨yes.node, yes.label, .made join⟩,
    .edge ⟨no.node, no.label, .made join⟩]
  return ⟨.made join, []⟩

/-- A fork is drawn in four: the diamond, the two answers, and the join. -/
theorem draw_fork (label : Text) (p q : Part) (cursor : Cursor Vertex) :
    (Part.fork label p q).draw cursor = (do
      let diamond ← (Part.single .conditional label).draw cursor
      let yes ← p.draw ⟨diamond.node, "Yes".toList⟩
      let no ← q.draw ⟨diamond.node, "No".toList⟩
      joinTogether yes no) := by
  funext b
  show ((Part.fork label p q).draw cursor).run b = EStateM.run (_ >>= _) b
  simp only [Part.draw, Part.steps, Part.exit, follow_append, EStateM.run_bind, EStateM.run_get,
    EStateM.run_pure, joinTogether, Part.forkMark, Part.yesAt, Part.noAt, Part.joinMark]
  cases hrun : (follow (Part.entrySteps ⟨.conditional, b.given + 1, label⟩ cursor)).run b with
  | error reason b' => rfl
  | ok _ b' =>
      -- Each stage counts on from the one before it.
      have hgiven : b'.given = b.given + 1 := by rw [follow_ok hrun]; rfl
      simp only [hgiven]
      cases hyes : (follow (p.steps (b.given + 1)
          ⟨.made ⟨.conditional, b.given + 1, label⟩, "Yes".toList⟩)).run b' with
      | error reason b'' => rfl
      | ok _ b'' =>
          simp only [given_of_follow_ok hyes, hgiven]
          cases hno : (follow (q.steps (b.given + 1 + p.size)
              ⟨.made ⟨.conditional, b.given + 1, label⟩, "No".toList⟩)).run b'' with
          | error reason b''' => rfl
          | ok _ b''' =>
              simp only [given_of_follow_ok hno, given_of_follow_ok hyes, hgiven]

/-! ## Parts are accepted -/

/-- A node that gets the next number is accepted. -/
theorem Builder.Numbered.addNode {b : Builder} (hb : b.Numbered) (role : Role) (label : Text) :
    b.graph.addNode (Mark.node ⟨role, b.given + 1, label⟩) =
      .ok { b.graph with nodes := b.graph.nodes ++ [Mark.node ⟨role, b.given + 1, label⟩] } := by
  apply Graph.addNode_of_new
  intro node hnode hid
  -- An old identifier has an old number.
  obtain ⟨role', number, hid', hle⟩ := hb node hnode
  rw [hid'] at hid
  have hnumber : number = b.given + 1 := (nodeId_inj (Value.text.inj hid)).2
  omega

theorem Builder.Numbered.extend_node {b : Builder} (hb : b.Numbered) (role : Role) (label : Text) :
    (b.extend [.node ⟨role, b.given + 1, label⟩]).Numbered := by
  intro node hnode
  have hgiven : (b.extend [.node ⟨role, b.given + 1, label⟩]).given = b.given + 1 := rfl
  rcases List.mem_append.mp hnode with hold | hnew
  · obtain ⟨role', number, hid, hle⟩ := hb node hold
    exact ⟨role', number, hid, by omega⟩
  · rw [Step.marks_node, Step.marks_nil, List.map_singleton, List.mem_singleton] at hnew
    exact ⟨role, b.given + 1, by rw [hnew]; rfl, by omega⟩

theorem Builder.Numbered.extend_edge {b : Builder} (hb : b.Numbered) (link : Link) :
    (b.extend [.edge link]).Numbered := by
  intro node hnode
  exact hb node (by simpa [Builder.extend] using hnode)

/-- Following a node step with the next number. -/
theorem follow_next_node {b : Builder} (hb : b.Numbered) (role : Role) (label : Text)
    (more : List Step) :
    (follow (.node ⟨role, b.given + 1, label⟩ :: more)).run b =
      (follow more).run (b.extend [.node ⟨role, b.given + 1, label⟩]) := by
  rw [follow_node_run, hb.addNode]
  simp [Builder.extend]

/-- A vertex is there when a node of the graph has its identifier. -/
def Builder.Has (b : Builder) (v : Vertex) : Prop :=
  ∃ node ∈ b.graph.nodes, node.id = .text (v.id)

theorem Builder.Has.extend {b : Builder} {v : Vertex} (h : b.Has v) (steps : List Step) :
    (b.extend steps).Has v := by
  obtain ⟨node, hnode, hid⟩ := h
  exact ⟨node, List.mem_append_left _ hnode, hid⟩

theorem has_extend_of_mem (b : Builder) {steps : List Step} {mark : Mark}
    (h : mark ∈ Step.marks steps) : (b.extend steps).Has (.made mark) :=
  ⟨mark.node, List.mem_append_right _ (List.mem_map_of_mem h), rfl⟩

/-- With one more node, a vertex is there that was there before or goes by the same identifier. -/
theorem has_extend_node_iff {b : Builder} {mark : Mark} {v : Vertex} :
    (b.extend [.node mark]).Has v ↔ b.Has v ∨ v.id = nodeId mark.role mark.number := by
  constructor
  · rintro ⟨node, hnode, hid⟩
    rcases List.mem_append.mp hnode with hold | hnew
    · exact Or.inl ⟨node, hold, hid⟩
    · rw [Step.marks_node, Step.marks_nil, List.map_singleton, List.mem_singleton] at hnew
      rw [hnew] at hid
      exact Or.inr (Value.text.inj hid).symm
  · rintro (h | h)
    · exact h.extend _
    · exact ⟨mark.node, List.mem_append_right _ (by simp), by rw [h]; rfl⟩

/-! ## Every step of a part is accepted -/

/-- Steps are accepted when those before them and those behind them are. -/
theorem follow_append_ok {b b' b'' : Builder} {s t : List Step}
    (hs : (follow s).run b = .ok () b') (ht : (follow t).run b' = .ok () b'') :
    (follow (s ++ t)).run b = .ok () b'' := by
  rw [follow_append, EStateM.run_bind, hs]
  exact ht

theorem Builder.Numbered.follow {p : Part} {given : Nat} {cursor : Cursor Vertex}
    {b after : Builder} (hb : b.Numbered) (hgiven : b.given = given)
    (h : (follow (p.steps given cursor)).run b = .ok () after) : after.Numbered := by
  subst hgiven
  rw [follow_ok h]
  exact hb.extend

theorem Builder.Has.follow {b after : Builder} {v : Vertex} {steps : List Step}
    (hv : b.Has v) (h : (follow steps).run b = .ok () after) :
    after.Has v := by
  rw [follow_ok h]
  exact hv.extend steps

/-- Behind a part the node of the cursor is there when the one before the part was. -/
theorem has_exit {p : Part} {given : Nat} {cursor : Cursor Vertex} {b after : Builder}
    (hcursor : b.Has cursor.node)
    (h : (follow (p.steps given cursor)).run b = .ok () after) :
    after.Has (p.exit given cursor).node := by
  rcases p.exit_eq_or given cursor with ⟨hexit, _⟩ | ⟨⟨mark, hmark, hexit⟩, _⟩
  · rw [hexit]
    exact hcursor.follow h
  · rw [hexit, follow_ok h]
    exact has_extend_of_mem b hmark

/-- A node with the next number is accepted. -/
theorem follow_node_ok {b : Builder} (hb : b.Numbered) {number : Nat}
    (hnumber : b.given + 1 = number) (role : Role) (label : Text) :
    ∃ after, (follow [.node ⟨role, number, label⟩]).run b = .ok () after ∧
      after.Has (.made ⟨role, number, label⟩) := by
  subst hnumber
  refine ⟨b.extend [.node ⟨role, b.given + 1, label⟩], ?_, ?_⟩
  · rw [follow_next_node hb]
    rfl
  · exact @has_extend_of_mem b _ ⟨role, b.given + 1, label⟩ (by simp)

/-- An edge between two vertices that are there is accepted. -/
theorem follow_edge_ok {b : Builder} {source target : Vertex} (label : Text)
    (hs : b.Has source) (ht : b.Has target) :
    ∃ after, (follow [.edge ⟨source, label, target⟩]).run b = .ok () after := by
  refine ⟨b.extend [.edge ⟨source, label, target⟩], ?_⟩
  rw [follow_edge_run, Link.edge, Graph.addEdge_of_mem hs ht]
  simp [Builder.extend, Link.edge, follow]

theorem follow_single_ok {b : Builder} (hb : b.Numbered) {given : Nat} (hgiven : b.given = given)
    {cursor : Cursor Vertex} {role : Role} {label : Text}
    (hcursor : b.Has cursor.node ∨ cursor.node.id = nodeId role (given + 1)) :
    ∃ after, (follow ((Part.single role label).steps given cursor)).run b =
      .ok () after := by
  subst hgiven
  have hnode := follow_next_node hb role label []
  have hmade := @has_extend_of_mem b [.node ⟨role, b.given + 1, label⟩] ⟨role, b.given + 1, label⟩
    (by simp)
  obtain ⟨after, hedge⟩ := follow_edge_ok cursor.label (has_extend_node_iff.mpr hcursor) hmade
  exact ⟨after, follow_append_ok hnode hedge⟩

/-- The steps of a part are accepted when the node that it is drawn from is there by the time its
first node is: it is there before, or goes by the identifier of that node.

The induction is on the part. One builder is named for each stage of a fork or a loop; every
stage is numbered and still has the nodes of the stages before it. -/
theorem follow_entered_ok (p : Part) {b : Builder} (hb : b.Numbered) {given : Nat}
    (hgiven : b.given = given) {cursor : Cursor Vertex}
    (hcursor : ∀ mark ∈ (p.marks given cursor).head?,
      b.Has cursor.node ∨ cursor.node.id = nodeId mark.role mark.number) :
    ∃ after, (follow (p.steps given cursor)).run b = .ok () after := by
  induction p generalizing b given cursor with
  | nothing => exact ⟨b, rfl⟩
  | single role label =>
      exact follow_single_ok hb hgiven (hcursor ⟨role, given + 1, label⟩ (by simp))
  | andThen first second ihFirst ihSecond =>
      rw [Part.marks_andThen] at hcursor
      have hfirst : ∀ mark ∈ (first.marks given cursor).head?,
          b.Has cursor.node ∨ cursor.node.id = nodeId mark.role mark.number := by
        intro mark hmark
        exact hcursor mark (by rw [List.head?_append, Option.mem_def.mp hmark]; rfl)
      obtain ⟨b1, h1⟩ := ihFirst hb hgiven hfirst
      have hsecond : ∀ mark ∈
          (second.marks (given + first.size) (first.exit given cursor)).head?,
          b1.Has (first.exit given cursor).node ∨
            (first.exit given cursor).node.id = nodeId mark.role mark.number := by
        intro mark hmark
        cases hmarks : first.marks given cursor with
        -- The first part adds nothing, so the second one is entered from the same node.
        | nil =>
            rw [hmarks, List.nil_append] at hcursor
            rw [Part.exit_of_marks_eq_nil hmarks]
            exact (hcursor mark hmark).imp_left fun h => h.follow h1
        | cons other marks =>
            obtain ⟨last, hlast, hexit⟩ :=
              Part.exit_of_marks_ne_nil (hmarks ▸ List.cons_ne_nil other marks)
            rw [hexit, follow_ok h1]
            exact Or.inl (has_extend_of_mem b hlast)
      obtain ⟨b2, h2⟩ := ihSecond (hb.follow hgiven h1)
        (by rw [given_of_follow_ok h1, hgiven]) hsecond
      exact ⟨b2, follow_append_ok h1 h2⟩
  | fork label yes no ihYes ihNo =>
      obtain ⟨b1, h1⟩ := @follow_single_ok b hb given hgiven cursor .conditional label
        (hcursor (Part.forkMark given label) (by simp))
      have hb1 := hb.follow hgiven h1
      have hgiven1 : b1.given = given + 1 := by rw [given_of_follow_ok h1, hgiven]; rfl
      have hfork : b1.Has (.made (Part.forkMark given label)) := by
        rw [follow_ok h1]
        exact has_extend_of_mem b (by simp [Part.steps, Part.entrySteps, Part.forkMark])
      obtain ⟨b2, h2⟩ :=
        @ihYes b1 hb1 _ hgiven1 (Part.yesAt given label) fun _ _ => Or.inl hfork
      have hb2 := hb1.follow hgiven1 h2
      have hgiven2 : b2.given = given + 1 + yes.size := by rw [given_of_follow_ok h2, hgiven1]
      have hyesExit := @has_exit yes _ (Part.yesAt given label) _ _ hfork h2
      obtain ⟨b3, h3⟩ :=
        @ihNo b2 hb2 _ hgiven2 (Part.noAt given label) fun _ _ => Or.inl (hfork.follow h2)
      have hgiven3 : b3.given + 1 = given + 1 + yes.size + no.size + 1 := by
        rw [given_of_follow_ok h3, hgiven2]
      have hnoExit := @has_exit no _ (Part.noAt given label) _ _ (hfork.follow h2) h3
      obtain ⟨b4, h4, hjoin⟩ := @follow_node_ok b3 (hb2.follow hgiven2 h3) _ hgiven3 .join
        "End if".toList
      obtain ⟨b5, h5⟩ := follow_edge_ok (yes.exit (given + 1) (Part.yesAt given label)).label
        ((hyesExit.follow h3).follow h4) hjoin
      obtain ⟨b6, h6⟩ := follow_edge_ok
        (no.exit (given + 1 + yes.size) (Part.noAt given label)).label
        ((hnoExit.follow h4).follow h5) (hjoin.follow h5)
      exact ⟨b6, follow_append_ok h1 (follow_append_ok h2 (follow_append_ok h3
        (follow_append_ok h4 (follow_append_ok h5 h6))))⟩
  | repeated label body ihBody =>
      obtain ⟨b1, h1⟩ := @follow_single_ok b hb given hgiven cursor .loop label
        (hcursor (Part.loopMark given label) (by simp))
      have hgiven1 : b1.given = given + 1 := by rw [given_of_follow_ok h1, hgiven]; rfl
      have hloop : b1.Has (.made (Part.loopMark given label)) := by
        rw [follow_ok h1]
        exact has_extend_of_mem b (by simp [Part.steps, Part.entrySteps, Part.loopMark])
      obtain ⟨b2, h2⟩ := @ihBody b1 (hb.follow hgiven h1) _ hgiven1 (Part.bodyAt given label)
        fun _ _ => Or.inl hloop
      obtain ⟨b3, h3⟩ := follow_edge_ok
        (body.exit (given + 1) (Part.bodyAt given label)).label
        (@has_exit body _ (Part.bodyAt given label) _ _ hloop h2) (hloop.follow h2)
      exact ⟨b3, follow_append_ok h1 (follow_append_ok h2 h3)⟩

/-- Drawn from a node of the graph, a part is accepted. -/
theorem follow_part_ok (p : Part) {b : Builder} (hb : b.Numbered) {given : Nat}
    (hgiven : b.given = given) {cursor : Cursor Vertex} (hcursor : b.Has cursor.node) :
    ∃ after, (follow (p.steps given cursor)).run b = .ok () after :=
  follow_entered_ok p hb hgiven fun _ _ => Or.inl hcursor

end Flowchart
