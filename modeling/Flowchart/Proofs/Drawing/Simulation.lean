import Flowchart.Proofs.Drawing.Following

/-!
# A drawing does what its part says

A builder keeps labels that wait for an edge, counts how deep it is in bodies, and draws the arms
of a conditional in a loop. A part has none of that: it is a list of steps. Main statements:
drawing a block does the same as following the steps of its part, also where the graph refuses a
step (`block_perform`), and so does drawing a program (`build_perform`).

What connects the two is the label that waits. At every moment at most one label does, the one of
the cursor (`Cursor.held`), so a builder is in step with a part as long as it holds just that.
-/

set_option autoImplicit false

namespace Flowchart

open Drawing

/-- The labels that wait when a drawing has arrived at a cursor. -/
def Cursor.held (cursor : Cursor Vertex) : List (Text × Text) :=
  if cursor.label = [] then [] else [(cursor.node.id, cursor.label)]

/-- The cursor with the identifier of its vertex. -/
def Cursor.named (cursor : Cursor Vertex) : Cursor Text :=
  ⟨cursor.node.id, cursor.label⟩

/-- Lets the label of the cursor wait, and gives the identifier of its vertex. -/
def settle (cursor : Cursor Vertex) : Drawing Text := do
  modify fun b => { b with waiting := cursor.held }
  return cursor.node.id

/-- No label waits, every identifier has been given out, and the builder has the depth and the
limit that a part is drawn with. -/
structure Builder.Calm (limit : Int) (depth : Nat) (b : Builder) : Prop where
  waiting : b.waiting = []
  numbered : b.Numbered
  limit : b.limit = limit
  depth : b.depth = depth

/-- Drawing `m` behind a node does what drawing `p` from a cursor there does, as long as the label
of the cursor is the one that waits. -/
def Draws (limit : Int) (depth : Nat) (m : Text → Drawing Text) (p : Part) : Prop :=
  ∀ (cursor : Cursor Vertex) (b : Builder), b.Calm limit depth →
    (m (cursor.node.id)).run { b with waiting := cursor.held } =
      (p.draw cursor >>= settle).run b

variable {limit : Int} {depth : Nat}

theorem Builder.Calm.extend {p : Part} {cursor : Cursor Vertex} {b : Builder}
    (hb : b.Calm limit depth) : (b.extend (p.steps b.given cursor)).Calm limit depth :=
  ⟨hb.waiting, hb.numbered.extend, hb.limit, hb.depth⟩

theorem Builder.Calm.of_draw {p : Part} {cursor exit : Cursor Vertex} {b after : Builder}
    (hb : b.Calm limit depth) (h : (p.draw cursor).run b = .ok exit after) :
    after.Calm limit depth := by
  rw [(draw_ok h).1]
  exact hb.extend

/-- Where no label waits, having none wait changes nothing. -/
theorem Builder.Calm.settled {b : Builder} (hb : b.Calm limit depth) {cursor : Cursor Vertex}
    (h : cursor.label = []) : { b with waiting := cursor.held } = b := by
  have hheld : cursor.held = b.waiting := by
    rw [hb.waiting, Cursor.held, if_pos h]
  rw [hheld]

theorem Builder.Calm.nothing_waits {b : Builder} (hb : b.Calm limit depth) :
    { b with waiting := [] } = b := by
  rw [← hb.waiting]

/-! ## Putting drawings together -/

/-- What is drawn after a drawing that is in step with a part may be drawn after the part. -/
theorem run_bind_of_settle {α : Type} {m : Drawing Text} {d : Drawing (Cursor Vertex)}
    {s b : Builder} {k : Text → Drawing α} {k' : Cursor Vertex → Drawing α}
    (h : m.run s = (d >>= settle).run b)
    (hk : ∀ cursor after, d.run b = .ok cursor after →
      (k (cursor.node.id)).run { after with waiting := cursor.held } =
        (k' cursor).run after) :
    (m >>= k).run s = (d >>= k').run b := by
  rw [EStateM.run_bind, h, EStateM.run_bind, EStateM.run_bind]
  cases hd : d.run b with
  | error reason after => rfl
  | ok cursor after => exact hk cursor after hd

theorem run_bind_of_eq {α β γ : Type} {m : Drawing α} {d : Drawing β} {f : β → α} {s b : Builder}
    {k : α → Drawing γ} {k' : β → Drawing γ} (h : m.run s = (d >>= fun x => pure (f x)).run b)
    (hk : ∀ x after, d.run b = .ok x after → (k (f x)).run after = (k' x).run after) :
    (m >>= k).run s = (d >>= k').run b := by
  rw [EStateM.run_bind, h, EStateM.run_bind, EStateM.run_bind]
  cases hd : d.run b with
  | error reason after => rfl
  | ok x after => exact hk x after hd

/-- What follows a drawing may be exchanged for what does the same there. -/
theorem run_bind_congr {α β : Type} {d : Drawing α} {b : Builder} {k k' : α → Drawing β}
    (hk : ∀ x after, d.run b = .ok x after → (k x).run after = (k' x).run after) :
    (d >>= k).run b = (d >>= k').run b := by
  rw [EStateM.run_bind, EStateM.run_bind]
  cases hd : d.run b with
  | error reason after => rfl
  | ok x after => exact hk x after hd

/-! ## Labels that wait -/

/-- Taking back the label at the cursor gives the label of the cursor and leaves none waiting. -/
theorem release_held (cursor : Cursor Vertex) (b : Builder) :
    (release (cursor.node.id)).run { b with waiting := cursor.held } =
      .ok cursor.label { b with waiting := [] } := by
  by_cases hlabel : cursor.label = []
  · simp [release, Cursor.held, hlabel]
  · simp [release, Cursor.held, hlabel]

/-- An edge from the cursor carries the label that waits there. -/
theorem link_held (cursor : Cursor Vertex) (target : Vertex) {b : Builder}
    (hb : b.Calm limit depth) :
    (link (cursor.node.id) (target.id) []).run
        { b with waiting := cursor.held } =
      (follow [.edge ⟨cursor.node, cursor.label, target⟩]).run b := by
  have hlabel : (if cursor.label.isEmpty then [] else cursor.label) = cursor.label := by
    split
    · rename_i h
      exact (List.isEmpty_iff.mp h).symm
    · rfl
  rw [link, EStateM.run_bind, release_held]
  simp only [hb.nothing_waits, hlabel]
  rw [follow_edge_run, change_run]
  rfl

/-- An edge between nodes where no label waits carries the label that it is given. -/
theorem link_run (source target : Vertex) (label : Text) {b : Builder}
    (hb : b.Calm limit depth) :
    (link (source.id) (target.id) label).run b =
      (follow [.edge ⟨source, label, target⟩]).run b := by
  have hrelease : (release (source.id)).run b = .ok [] b := by
    have h := @release_held ⟨source, []⟩ b
    rw [hb.settled rfl, hb.nothing_waits] at h
    exact h
  rw [link, EStateM.run_bind, hrelease]
  simp only [List.isEmpty_nil, if_true]
  rw [follow_edge_run, change_run]
  rfl

/-! ## Single nodes -/

theorem addNode_run {b : Builder} (hb : b.Numbered) (role : Role) (label : Text) :
    (addNode role label).run b =
      .ok (nodeId role (b.given + 1)) (b.extend [.node ⟨role, b.given + 1, label⟩]) := by
  have hadd := hb.addNode role label
  simp only [Mark.node, nodeOf] at hadd
  simp only [addNode, newId, EStateM.run_bind, EStateM.run_modify, EStateM.run_get,
    EStateM.run_pure, change_run, hadd]
  simp [Builder.extend, Mark.node, nodeOf]

theorem Builder.Calm.extend_node {b : Builder} (hb : b.Calm limit depth) (role : Role)
    (label : Text) : (b.extend [.node ⟨role, b.given + 1, label⟩]).Calm limit depth :=
  ⟨hb.waiting, hb.numbered.extend_node role label, hb.limit, hb.depth⟩

theorem Builder.Calm.extend_edge {b : Builder} (hb : b.Calm limit depth) (link : Link) :
    (b.extend [.edge link]).Calm limit depth :=
  ⟨hb.waiting, hb.numbered.extend_edge link, hb.limit, hb.depth⟩

/-- Adding a node off the cursor draws a single node. -/
theorem append_draws (role : Role) (label : Text) :
    Draws limit depth (append · role label) (.single role label) := by
  intro cursor b hb
  show (append cursor.node.id role label).run _ = _
  have hnumbered : Builder.Numbered { b with waiting := cursor.held } := hb.numbered
  have hcalm : (b.extend [.node ⟨role, b.given + 1, label⟩]).Calm limit depth :=
    hb.extend_node role label
  have hlink := link_held cursor (.made ⟨role, b.given + 1, label⟩) hcalm
  have hextend : Builder.extend { b with waiting := cursor.held }
      [.node ⟨role, b.given + 1, label⟩] =
    { b.extend [.node ⟨role, b.given + 1, label⟩] with waiting := cursor.held } := rfl
  rw [append, EStateM.run_bind, addNode_run hnumbered]
  simp only [EStateM.run_bind, Part.draw, EStateM.run_get, EStateM.run_pure, Part.steps, Part.exit,
    Part.entrySteps, follow_next_node hb.numbered, settle, EStateM.run_modify]
  rw [Vertex.id_made] at hlink
  rw [hextend, hlink]
  cases hrun : (follow [.edge ⟨cursor.node, cursor.label, .made ⟨role, b.given + 1, label⟩⟩]).run
      (b.extend [.node ⟨role, b.given + 1, label⟩]) with
  | error reason after => rfl
  | ok _ after =>
      have hafter : after.Calm limit depth := by
        rw [follow_ok hrun]
        exact hcalm.extend_edge _
      simp only [hafter.settled]
      rfl

theorem nothing_draws : Draws limit depth pure .nothing := by
  intro cursor b hb
  rfl

theorem Draws.andThen {m n : Text → Drawing Text} {p q : Part}
    (hm : Draws limit depth m p) (hn : Draws limit depth n q) :
    Draws limit depth (fun t => do n (← m t)) (.andThen p q) := by
  intro cursor b hb
  rw [draw_andThen, bind_assoc]
  apply run_bind_of_settle (hm cursor b hb)
  intro exit after hafter
  exact hn exit after (hb.of_draw hafter)

theorem plain_draws (t : Text) : Draws limit depth (plain t) (.plain limit t) := by
  intro cursor b hb
  rw [plain, Part.plain]
  by_cases hblank : Text.isAllBlank t = true
  · rw [if_pos hblank, if_pos hblank]
    exact nothing_draws cursor b hb
  · rw [if_neg hblank, if_neg hblank]
    obtain rfl := hb.limit
    exact append_draws (Role.ofStepKind (stepKind t)) (stepLabel b.limit t) cursor b hb

/-- Statements one behind the other draw the sequence of their parts. -/
theorem sequence_draws {α : Type} {m : Text → α → Drawing Text} {part : α → Part}
    (h : ∀ x, Draws limit depth (m · x) (part x)) (xs : List α) :
    Draws limit depth (fun t => xs.foldlM m t) (.sequence (xs.map part)) := by
  induction xs with
  | nil =>
      intro cursor b hb
      exact nothing_draws cursor b hb
  | cons x xs ih =>
      intro cursor b hb
      show (List.foldlM m (cursor.node.id) (x :: xs)).run _ = _
      rw [List.foldlM_cons]
      exact (h x).andThen ih cursor b hb

/-! ## Branches -/

/-- Taking back the label behind a branch gives where the branch arrives. -/
theorem release_exit {p : Part} {origin : Vertex} {label : Text} {exit : Cursor Vertex}
    {b after : Builder} (hafter : after.Calm limit depth)
    (h : (p.draw ⟨origin, label⟩).run b = .ok exit after) :
    (release (origin.id)).run { after with waiting := exit.held } =
      .ok exit.label after := by
  rcases p.exit_eq_or b.given ⟨origin, label⟩ with ⟨hexit, _⟩ | ⟨⟨mark, _, hexit⟩, _⟩
  -- Nothing was drawn: the label still waits at the origin.
  · have hnode : origin = exit.node := by
      rw [(draw_ok h).2, hexit]
    rw [hnode, release_held, hafter.nothing_waits]
  -- Something was drawn: its first edge took the label.
  · have hlabel : exit.label = [] := by
      rw [(draw_ok h).2, hexit]
    have hrelease := @release_held ⟨origin, []⟩ after
    rw [hafter.settled rfl, hafter.nothing_waits] at hrelease
    rw [hafter.settled hlabel, hlabel]
    exact hrelease

/-- The diamond of an arm and the answer yes behind it. -/
def drawArm (label : Text) (p : Part) (cursor : Cursor Vertex) :
    Drawing (Cursor Vertex × Cursor Vertex) := do
  let diamond ← (Part.single .conditional label).draw cursor
  let exit ← p.draw ⟨diamond.node, "Yes".toList⟩
  return (diamond, exit)

/-- A fork is its arm, the answer no, and the join. -/
theorem draw_fork_arm (label : Text) (p q : Part) (cursor : Cursor Vertex) :
    (Part.fork label p q).draw cursor = (do
      let x ← drawArm label p cursor
      let no ← q.draw ⟨x.1.node, "No".toList⟩
      joinTogether x.2 no) := by
  rw [draw_fork, drawArm]
  simp only [bind_assoc, pure_bind]

theorem Builder.Calm.of_drawArm {label : Text} {p : Part} {cursor : Cursor Vertex}
    {exits : Cursor Vertex × Cursor Vertex} {b after : Builder} (hb : b.Calm limit depth)
    (h : (drawArm label p cursor).run b = .ok exits after) : after.Calm limit depth := by
  rw [drawArm, EStateM.run_bind] at h
  cases h1 : ((Part.single .conditional label).draw cursor).run b with
  | error reason b1 =>
      rw [h1] at h
      cases h
  | ok diamond b1 =>
      rw [h1] at h
      simp only [EStateM.run_bind] at h
      cases h2 : (p.draw ⟨diamond.node, "Yes".toList⟩).run b1 with
      | error reason b2 =>
          rw [h2] at h
          cases h
      | ok exit b2 =>
          rw [h2] at h
          cases h
          exact (hb.of_draw h1).of_draw h2

section Bodies

variable {body : List Text → Text → Drawing Text} {part : List Text → Part}

/-- A branch draws its body from a cursor with the label of the branch. -/
theorem branch_run (hbody : ∀ ls, Draws limit depth (body ls) (part ls)) (ls : List Text)
    (origin : Vertex) {label : Text} (hlabel : label ≠ []) {b : Builder}
    (hb : b.Calm limit depth) :
    (branch body ls (origin.id) label).run b =
      (do let exit ← (part ls).draw ⟨origin, label⟩
          return exit.named).run b := by
  have hhold : (hold (origin.id) label).run b =
      .ok () { b with waiting := Cursor.held ⟨origin, label⟩ } := by
    simp [hold, Cursor.held, hlabel, hb.waiting]
  rw [branch, EStateM.run_bind, hhold]
  apply run_bind_of_settle (hbody ls ⟨origin, label⟩ b hb)
  intro exit after hafter
  rw [EStateM.run_bind, release_exit (hb.of_draw hafter) hafter]
  rfl

/-- An arm draws its diamond and the answer yes. -/
theorem arm_run (hbody : ∀ ls, Draws limit depth (body ls) (part ls)) (a : Arm)
    (cursor : Cursor Vertex) {b : Builder} (hb : b.Calm limit depth) :
    (arm body a (cursor.node.id)).run { b with waiting := cursor.held } =
      (do let (diamond, exit) ← drawArm (conditionLabel a.condition) (part a.body) cursor
          return (diamond.node.id, exit.named)).run b := by
  rw [arm, drawArm, bind_assoc]
  apply run_bind_of_settle (append_draws .conditional (conditionLabel a.condition) cursor b hb)
  intro diamond after hafter
  have hcalm := hb.of_draw hafter
  have hdiamond : diamond.label = [] := by
    rw [(draw_ok hafter).2]
    rfl
  rw [hcalm.settled hdiamond, bind_assoc]
  exact run_bind_of_eq (branch_run hbody a.body diamond.node (by decide) hcalm) fun _ _ _ => rfl

/-! ## Conditionals and loops -/

/-- Behind a join no label waits that did not before. -/
theorem joinTogether_ok {yes no joined : Cursor Vertex} {b after : Builder}
    (h : (joinTogether yes no).run b = .ok joined after) :
    after.waiting = b.waiting ∧ joined.label = [] := by
  simp only [joinTogether, EStateM.run_bind, EStateM.run_get, EStateM.run_pure] at h
  split at h
  · rename_i hrun
    cases h
    rw [follow_ok hrun]
    exact ⟨rfl, rfl⟩
  · cases h

/-- Joining the exits of the branches joins the last one first. -/
theorem joins_cons_run (yes : Cursor Vertex) (exits : List (Cursor Vertex)) (no : Cursor Vertex)
    {b : Builder} (hb : b.Calm limit depth) :
    (joins ((yes :: exits).map Cursor.named) no.named).run b =
      (do let joined ← joinTogether yes no
          joins (exits.map Cursor.named) joined.named).run b := by
  have hcalm : (b.extend [.node ⟨.join, b.given + 1, "End if".toList⟩]).Calm limit depth :=
    hb.extend_node .join _
  have hyes := link_run yes.node (.made ⟨.join, b.given + 1, "End if".toList⟩) yes.label hcalm
  rw [List.map_cons, joins, EStateM.run_bind, addNode_run hb.numbered]
  simp only [joinTogether, EStateM.run_bind, EStateM.run_get, EStateM.run_pure,
    follow_next_node hb.numbered]
  rw [Vertex.id_made] at hyes
  rw [show ∀ (s t : Step), [s, t] = [s] ++ [t] from fun _ _ => rfl, follow_append,
    EStateM.run_bind]
  simp only [Cursor.named]
  rw [hyes]
  cases hrun : (follow [.edge ⟨yes.node, yes.label,
      .made ⟨.join, b.given + 1, "End if".toList⟩⟩]).run
      (b.extend [.node ⟨.join, b.given + 1, "End if".toList⟩]) with
  | error reason after => rfl
  | ok _ after =>
      have hafter : after.Calm limit depth := by
        rw [follow_ok hrun]
        exact hcalm.extend_edge _
      have hno := link_run no.node (.made ⟨.join, b.given + 1, "End if".toList⟩) no.label hafter
      rw [Vertex.id_made] at hno
      simp only
      rw [hno]
      cases (follow [.edge ⟨no.node, no.label,
          .made ⟨.join, b.given + 1, "End if".toList⟩⟩]).run after with
      | error reason after' => rfl
      | ok _ after' => rfl

/-- The further arms of a conditional and the lines after its last `else` draw one chain, which is
joined with the branches before it.

The induction is on the arms. Each further arm is the answer no of the one before it, so the chain
behind it is drawn first and then joined with its branch: the loop over the arms and the loop over
the joins are one recursion. -/
theorem chain_run (hbody : ∀ ls, Draws limit depth (body ls) (part ls)) (more : List Arm)
    (elseBody : List Text) (diamond : Vertex) (exits : List (Cursor Vertex)) {b : Builder}
    (hb : b.Calm limit depth) :
    (do let (last, exits) ← furtherArms body (diamond.id)
          (exits.map Cursor.named) more
        let otherwise ← branch body elseBody last "No".toList
        joins exits otherwise).run b =
      (do let otherwise ← (Part.chain part more elseBody).draw ⟨diamond, "No".toList⟩
          joins (exits.map Cursor.named) (otherwise.named)).run b := by
  induction more generalizing diamond exits b with
  | nil =>
      simp only [furtherArms, pure_bind, Part.chain]
      exact run_bind_of_eq (branch_run hbody elseBody diamond (by decide) hb) fun _ _ _ => rfl
  | cons a more ih =>
      have hhold : (hold (diamond.id) "No".toList).run b =
          .ok () { b with waiting := Cursor.held ⟨diamond, "No".toList⟩ } := by
        simp [hold, Cursor.held, hb.waiting]
      simp only [furtherArms, bind_assoc]
      rw [EStateM.run_bind, hhold, Part.chain, draw_fork_arm]
      simp only [bind_assoc]
      apply run_bind_of_eq (arm_run hbody a ⟨diamond, "No".toList⟩ hb)
      intro x after hafter
      have hcalm := hb.of_drawArm hafter
      -- The branch of this arm goes in front of those before it, as it does in the loop.
      have hmore := ih x.1.node (x.2 :: exits) hcalm
      rw [List.map_cons] at hmore
      rw [hmore]
      apply run_bind_congr
      intro no after' hafter'
      -- Of the branches, that of this arm is joined first.
      rw [← List.map_cons, joins_cons_run x.2 exits no (hcalm.of_draw hafter')]

/-- A conditional draws the chain of its arms. -/
theorem conditional_draws (hbody : ∀ ls, Draws limit depth (body ls) (part ls))
    (first : Arm) (more : List Arm) (elseBody : List Text) :
    Draws limit depth (conditional body first more elseBody)
      (.chain part (first :: more) elseBody) := by
  intro cursor b hb
  rw [conditional, Part.chain, draw_fork_arm, bind_assoc]
  apply run_bind_of_eq (arm_run hbody first cursor hb)
  intro x after hafter
  have hcalm := hb.of_drawArm hafter
  have hchain := chain_run hbody more elseBody x.1.node [x.2] hcalm
  show (do
    let y ← furtherArms body (x.1.node.id) [x.2.named] more
    let otherwise ← branch body elseBody y.1 "No".toList
    let joined ← joins y.2 otherwise
    return joined.node).run after = _
  rw [bind_assoc]
  calc _ = ((do
          let y ← furtherArms body (x.1.node.id) ([x.2].map Cursor.named) more
          let otherwise ← branch body elseBody y.1 "No".toList
          joins y.2 otherwise) >>= fun joined => pure joined.node).run after := by
        simp only [bind_assoc, List.map_cons, List.map_nil]
    _ = ((do
          let otherwise ← (Part.chain part more elseBody).draw ⟨x.1.node, "No".toList⟩
          joins ([x.2].map Cursor.named) (otherwise.named)) >>=
            fun joined => pure joined.node).run after := by
        rw [EStateM.run_bind, hchain, ← EStateM.run_bind]
    _ = _ := by
        -- With no branch left, one join closes the conditional.
        rw [bind_assoc]
        apply run_bind_congr
        intro no after' hafter'
        have hcalm' := hcalm.of_draw hafter'
        rw [EStateM.run_bind, joins_cons_run x.2 [] no hcalm', ← EStateM.run_bind, bind_assoc]
        apply run_bind_congr
        intro joined after'' hafter''
        obtain ⟨hwaiting, hlabel⟩ := joinTogether_ok hafter''
        simp only [List.map_nil, joins, pure_bind, settle, EStateM.run_bind, EStateM.run_modify,
          EStateM.run_pure, Cursor.named]
        rw [Cursor.held, if_pos hlabel, ← hcalm'.waiting, ← hwaiting]

/-- A loop draws its body between its diamond and the way back. -/
theorem loop_draws (hbody : ∀ ls, Draws limit depth (body ls) (part ls))
    (keyword condition : Text) (ls : List Text) :
    Draws limit depth (loop body keyword condition ls)
      (.repeated (keyword ++ ' ' :: condition) (part ls)) := by
  intro cursor b hb
  rw [loop, draw_repeated, bind_assoc]
  apply run_bind_of_settle (append_draws .loop (keyword ++ ' ' :: condition) cursor b hb)
  intro diamond after hafter
  have hcalm := hb.of_draw hafter
  have hdiamond : diamond.label = [] := by
    rw [(draw_ok hafter).2]
    rfl
  have hcursor : diamond = ⟨diamond.node, []⟩ := by
    rw [← hdiamond]
  rw [bind_assoc]
  apply run_bind_of_settle (hbody ls diamond after hcalm)
  intro exit after' hafter'
  have hcalm' := hcalm.of_draw hafter'
  rw [EStateM.run_bind, link_held exit diamond.node hcalm', bind_assoc, EStateM.run_bind]
  cases hrun : (follow [.edge ⟨exit.node, exit.label, diamond.node⟩]).run after' with
  | error reason after'' => rfl
  | ok _ after'' =>
      have hcalm'' : after''.Calm limit depth := by
        rw [follow_ok hrun]
        exact hcalm'.extend_edge _
      simp only [pure_bind, settle, EStateM.run_bind, EStateM.run_modify, EStateM.run_pure]
      rw [hcalm''.settled hdiamond]

theorem statement_draws (hbody : ∀ ls, Draws limit depth (body ls) (part ls))
    (s : Statement) :
    Draws limit depth (statement body · s) (.statement limit part s) := by
  cases s with
  | function name line => exact append_draws .function _
  | conditional first more elseBody line => exact conditional_draws hbody first more elseBody
  | loop keyword condition ls line => exact loop_draws hbody keyword condition ls
  | «variable» content line => exact plain_draws content
  | result value line => exact append_draws .result _
  | plain content line => exact plain_draws content

/-- A block draws the sequence of its statements. -/
theorem block_draws (hbody : ∀ ls, Draws limit depth (body ls) (part ls))
    (statements : List Statement) :
    Draws limit depth (block body statements)
      (.sequence (statements.map (Part.statement limit part))) :=
  sequence_draws (statement_draws hbody) statements

end Bodies

/-! ## Bodies -/

/-- The result with the depth of the builder changed. -/
def withDepth {α : Type} (change : Nat → Nat) :
    EStateM.Result GraphError Builder α → EStateM.Result GraphError Builder α
  | .ok x after => .ok x { after with depth := change after.depth }
  | .error reason after => .error reason { after with depth := change after.depth }

/-- The depth comes back also when the drawing inside stops early. -/
theorem inside_run {α : Type} (d : Drawing α) (b : Builder) :
    (inside d).run b = withDepth (· - 1) (d.run { b with depth := b.depth + 1 }) := by
  simp only [inside, tryFinally, EStateM.run_bind, EStateM.run_modify]
  simp only [EStateM.run, Functor.map, EStateM.map, MonadFinally.tryFinally']
  cases d { b with depth := b.depth + 1 } with
  | error reason after => rfl
  | ok x after => rfl

/-- Following steps does not look at the depth. -/
theorem follow_depth (steps : List Step) (b : Builder) (depth : Nat) :
    (follow steps).run { b with depth := depth } =
      withDepth (fun _ => depth) ((follow steps).run b) := by
  induction steps generalizing b with
  | nil => rfl
  | cons step steps ih =>
      cases step with
      | node mark =>
          rw [follow_node_run, follow_node_run]
          cases b.graph.addNode mark.node with
          | error reason => rfl
          | ok graph => exact ih { b with graph := graph, given := b.given + 1 }
      | edge link =>
          rw [follow_edge_run, follow_edge_run]
          cases b.graph.addEdge link.edge with
          | error reason => rfl
          | ok graph => exact ih { b with graph := graph }

/-- Inside a body the same is drawn as outside, one level deeper. -/
theorem inside_draws {m : Text → Drawing Text} {p : Part}
    (h : Draws limit (depth + 1) m p) :
    Draws limit depth (fun t => inside (m t)) p := by
  intro cursor b hb
  -- Inside, the builder is calm one level deeper.
  have hdeep : Builder.Calm limit (depth + 1) { b with depth := b.depth + 1 } :=
    ⟨hb.waiting, hb.numbered, hb.limit, by rw [hb.depth]⟩
  have hrun := h cursor _ hdeep
  show (inside (m (cursor.node.id))).run _ = _
  rw [inside_run]
  refine (congrArg (withDepth (· - 1)) hrun).trans ?_
  simp only [EStateM.run_bind, Part.draw, EStateM.run_get, EStateM.run_pure, follow_depth, settle,
    EStateM.run_modify]
  cases hsteps : (follow (p.steps b.given cursor)).run b with
  | error reason after =>
      have hdepth := (follow_error hsteps).depth
      simp [withDepth, ← hdepth]
  | ok _ after =>
      have hdepth : after.depth = b.depth := by
        rw [follow_ok hsteps]
        rfl
      simp [withDepth, ← hdepth]

/-- The lines of a body draw their part, as long as the levels left and the depth make up the
bound on nesting. -/
theorem lines_draws (room : Nat) (hroom : depth + room = maxNesting) (ls : List Text) :
    Draws limit depth (lines room ls) (.lines limit room ls) := by
  induction room generalizing depth ls with
  | zero => exact sequence_draws plain_draws ls
  | succ room ih =>
      intro cursor b hb
      -- There is room left, so the bound on nesting is not reached.
      have hlt : ¬ maxNesting ≤ b.depth := by
        rw [hb.depth]
        omega
      rw [lines, EStateM.run_bind, EStateM.run_get]
      simp only [if_neg hlt]
      exact inside_draws (block_draws (ih (by omega)) (Source.statements ls)) cursor b hb

/-! ## Blocks and programs -/

/-- The result of following steps, with the identifier that a drawing gives. -/
def Builder.followTo (steps : List Step) (exit : Vertex) (b : Builder) :
    Builder × Except GraphError Text :=
  b.perform (do follow steps; return exit.id)

theorem Builder.followTo_eq {steps : List Step} {exit : Vertex} {b : Builder} :
    b.followTo steps exit =
      match (follow steps).run b with
      | .ok _ after => (after, .ok (exit.id))
      | .error reason after => (after, .error reason) := by
  rw [Builder.followTo, Builder.perform, EStateM.run_bind]
  cases (follow steps).run b <;> rfl

/-- Drawing a part from a cursor without a label leaves none waiting. -/
theorem draw_settle_run {p : Part} {v : Vertex} {b : Builder} (hb : b.Calm limit depth) :
    (p.draw ⟨v, []⟩ >>= settle).run b =
      (do follow (p.steps b.given ⟨v, []⟩)
          return (p.exit b.given ⟨v, []⟩).node.id).run b := by
  simp only [Part.draw, EStateM.run_bind, EStateM.run_get, EStateM.run_pure]
  cases hrun : (follow (p.steps b.given ⟨v, []⟩)).run b with
  | error reason after => rfl
  | ok _ after =>
      have hafter : after.Calm limit depth := by
        rw [follow_ok hrun]
        exact hb.extend
      have hlabel : (p.exit b.given ⟨v, []⟩).label = [] := p.label_exit_eq_nil rfl
      simp only [settle, EStateM.run_bind, EStateM.run_modify, EStateM.run_pure,
        hafter.settled hlabel]

/-- A block of statements that is in no body draws its part. -/
theorem block_draws_part (statements : List Statement) :
    Draws limit 0 (block (lines maxNesting) statements) (.block limit statements) :=
  block_draws (lines_draws maxNesting (by decide)) statements

/-- A block does what the steps of its part do. -/
theorem block_perform {b : Builder} (hb : b.Calm limit 0) (statements : List Statement)
    (current : Text) :
    b.block statements current =
      b.followTo ((Part.block limit statements).steps b.given ⟨.outer current, []⟩)
        ((Part.block limit statements).exit b.given ⟨.outer current, []⟩).node := by
  have hdraws := @block_draws_part limit statements ⟨.outer current, []⟩ b hb
  rw [hb.settled rfl, draw_settle_run hb] at hdraws
  rw [Builder.block, Builder.perform]
  rw [Vertex.id_outer] at hdraws
  rw [hdraws]
  rfl

theorem build_perform {b : Builder} (hb : b.Calm limit 0) (statements : List Statement) :
    b.build statements =
      b.followTo (Part.programSteps limit statements b.given)
        (Part.programExit limit statements b.given) := by
  have hcalm : (b.extend [.node (Part.startMark b.given)]).Calm limit 0 :=
    hb.extend_node .start _
  have hdraws := @block_draws_part limit statements (Part.startAt b.given) _ hcalm
  rw [hcalm.settled rfl, Part.startAt, draw_settle_run hcalm] at hdraws
  have hprogram : (program statements).run b =
      (block (lines maxNesting) statements ((Vertex.made (Part.startMark b.given)).id)).run
        (b.extend [.node (Part.startMark b.given)]) := by
    rw [program, EStateM.run_bind, addNode_run hb.numbered]
    rfl
  rw [Builder.build, Builder.perform, hprogram, hdraws, Builder.followTo, Builder.perform,
    EStateM.run_bind, EStateM.run_bind, Part.programSteps, Part.startMark,
    follow_next_node hb.numbered]
  rfl

/-! ## The graph of a program -/

theorem calm_new (limit : Int) (direction : Text) : (Builder.new limit direction).Calm limit 0 :=
  ⟨rfl, fun _ h => absurd h List.not_mem_nil, rfl, rfl⟩

/-- A program is drawn to its end by a new builder, which then holds what its steps add. -/
theorem build_new (limit : Int) (direction : Text) (statements : List Statement) :
    (Builder.new limit direction).build statements =
      ((Builder.new limit direction).extend (Part.programSteps limit statements 0),
        .ok (Part.programExit limit statements 0).id) := by
  have hb := calm_new limit direction
  have hstart := follow_next_node hb.numbered .start "Start".toList
    ((Part.block limit statements).steps 1 (Part.startAt 0))
  -- The block hangs off the start node, so every step of it is accepted.
  have hhas : ((Builder.new limit direction).extend [.node (Part.startMark 0)]).Has
      (Part.startAt 0).node :=
    has_extend_of_mem _ (by simp)
  obtain ⟨after, hafter⟩ := follow_part_ok (Part.block limit statements)
    (hb.numbered.extend_node .start "Start".toList) rfl hhas
  have hrun : (follow (Part.programSteps limit statements 0)).run
      (Builder.new limit direction) = .ok () after := hstart.trans hafter
  rw [build_perform hb statements, Builder.followTo_eq]
  show (match (follow (Part.programSteps limit statements 0)).run
    (Builder.new limit direction) with
    | .ok _ after => _
    | .error reason after => _) = _
  rw [hrun, follow_ok hrun]
  rfl

namespace Graph

theorem nodes_ofStatements (limit : Int) (direction : Text) (statements : List Statement) :
    (ofStatements limit direction statements).nodes =
      (Step.marks (Part.programSteps limit statements 0)).map Mark.node := by
  rw [ofStatements, build_new]
  rfl

theorem edges_ofStatements (limit : Int) (direction : Text) (statements : List Statement) :
    (ofStatements limit direction statements).edges =
      (Step.links (Part.programSteps limit statements 0)).map Link.edge := by
  rw [ofStatements, build_new]
  rfl

end Graph

end Flowchart
