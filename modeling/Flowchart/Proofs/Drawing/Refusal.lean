import Flowchart.Proofs.Drawing.Fragment

/-!
# Refused drawings

A drawing is refused at its first edge or not at all. The first node of a block is there before the
edge to it is checked, so a refusal leaves that node behind, and a block may hang off the node that
it is about to add. Main statement: `block_refused_iff`, when a block is refused and what is left
then; a program is never refused.

Behind its first edge a block only links what it has added itself, and all of that is accepted
(`follow_entered_ok`).
-/

set_option autoImplicit false

namespace Flowchart

/-! ## The first node of a block -/

/-- The role of the node that a plain statement is drawn as; a blank one is not drawn. -/
def Text.stepRole? (t : Text) : Option Role :=
  if isAllBlank t then none else some (Role.ofStepKind (stepKind t))

/-- The role of the first node that a statement is drawn as. Only a blank plain statement or
variable has none. -/
def Statement.firstRole? : Statement → Option Role
  | .function _ _ => some .function
  | .conditional _ _ _ _ => some .conditional
  | .loop _ _ _ _ => some .loop
  | .variable content _ => content.stepRole?
  | .result _ _ => some .result
  | .plain content _ => content.stepRole?

namespace Part

variable {given : Nat} {cursor : Cursor Vertex}

theorem role_head?_plain (limit : Int) (t : Text) :
    ((plain limit t).marks given cursor).head?.map Mark.role = t.stepRole? := by
  unfold plain Text.stepRole?
  split
  · rfl
  · rfl

theorem role_head?_statement (limit : Int) (body : List Text → Part) (s : Statement) :
    ((statement limit body s).marks given cursor).head?.map Mark.role = s.firstRole? := by
  cases s with
  | function name line => rfl
  | conditional first more elseBody line =>
      rw [statement, chain, marks_fork]
      rfl
  | loop keyword condition ls line =>
      rw [statement, marks_repeated]
      rfl
  | «variable» content line => exact role_head?_plain limit content
  | result value line => rfl
  | plain content line => exact role_head?_plain limit content

/-- The first node of a block is that of its first statement with a node. -/
theorem role_head?_block (limit : Int) (statements : List Statement) :
    ((block limit statements).marks given cursor).head?.map Mark.role =
      statements.findSome? Statement.firstRole? := by
  unfold block
  induction statements generalizing given cursor with
  | nil => rfl
  | cons s statements ih =>
      have hs := @role_head?_statement given cursor limit (lines limit maxNesting) s
      rw [List.map_cons, sequence, marks_andThen, List.head?_append, Option.map_or, hs, ih,
        List.findSome?_cons]
      cases s.firstRole? <;> rfl

/-- A block with a first node begins with it and the edge from the cursor. -/
theorem exists_block_steps {limit : Int} {statements : List Statement} {role : Role}
    (h : statements.findSome? Statement.firstRole? = some role) :
    ∃ label more, (block limit statements).steps given cursor =
      entrySteps ⟨role, given + 1, label⟩ cursor ++ more := by
  rw [← @role_head?_block given cursor limit statements] at h
  cases hmarks : (block limit statements).marks given cursor with
  | nil =>
      rw [hmarks] at h
      cases h
  | cons mark marks =>
      rw [hmarks] at h
      obtain rfl : mark.role = role := Option.some.inj h
      obtain ⟨more, hmore⟩ := exists_steps_eq hmarks
      exact ⟨mark.label, more, by rw [hmore, ← number_of_marks_eq_cons hmarks]⟩

end Part

namespace Builder

/-! ## Blocks and programs -/

/-- A block is refused for the node that it hangs off: it has a first node, no node of the graph is
`current`, and neither will the first node be. -/
def Refuses (b : Builder) (statements : List Statement) (current : Text) : Prop :=
  ∃ role, statements.findSome? Statement.firstRole? = some role ∧
    .text current ∉ b.graph.nodes.map Node.id ∧ current ≠ nodeId role (b.given + 1)

/-- A refusal says which node is unknown, and leaves one node more and all else as it was. -/
structure LeftByRefusal (before after : Builder) (current : Text) (reason : GraphError) : Prop where
  unknown : reason = .unknownSource (.text current)
  message : reason.message = "Unknown source node: ".toList ++ current
  nodes : ∃ node, after.graph.nodes = before.graph.nodes ++ [node]
  edges : after.graph.edges = before.graph.edges
  waiting : after.waiting = before.waiting
  depth : after.depth = before.depth

variable {b : Builder} {statements : List Statement} {current : Text}

/-- The outer node is there when a node of the graph has its identifier. -/
theorem has_outer_iff : b.Has (.outer current) ↔ .text current ∈ b.graph.nodes.map Node.id :=
  List.mem_map.symm

/-- A program hangs off its own start node, so it is drawn to its end. -/
theorem Sound.exists_build_ok (hb : b.Sound) (statements : List Statement) :
    ∃ exit, (b.build statements).2 = .ok exit := by
  have hhas : (b.extend [.node (Part.startMark b.given)]).Has (Part.startAt b.given).node :=
    has_extend_of_mem b (by simp)
  obtain ⟨after, hafter⟩ := follow_part_ok (Part.block b.limit statements)
    (hb.calm.numbered.extend_node .start "Start".toList) rfl hhas
  have hrun : (Flowchart.follow (Part.programSteps b.limit statements b.given)).run b =
      .ok () after :=
    (follow_next_node hb.calm.numbered .start "Start".toList _).trans hafter
  rw [build_perform hb.calm, followTo_eq, hrun]
  exact ⟨_, rfl⟩

theorem Sound.exists_block_ok (hb : b.Sound) (h : ¬ b.Refuses statements current) :
    ∃ exit, (b.block statements current).2 = .ok exit := by
  have hentered : ∀ mark ∈
      ((Part.block b.limit statements).marks b.given ⟨.outer current, []⟩).head?,
      b.Has (.outer current) ∨ current = nodeId mark.role mark.number := by
    intro mark hmark
    have hrole := @Part.role_head?_block b.given ⟨.outer current, []⟩ b.limit statements
    obtain ⟨marks, hmarks⟩ := List.head?_eq_some_iff.mp (Option.mem_def.mp hmark)
    rw [hmarks] at hrole
    rw [Part.number_of_marks_eq_cons hmarks, has_outer_iff]
    by_cases hknown : .text current ∈ b.graph.nodes.map Node.id
    · exact Or.inl hknown
    · by_cases hfirst : current = nodeId mark.role (b.given + 1)
      · exact Or.inr hfirst
      · exact absurd ⟨mark.role, hrole.symm, hknown, hfirst⟩ h
  obtain ⟨after, hafter⟩ := follow_entered_ok (Part.block b.limit statements) hb.calm.numbered rfl
    hentered
  rw [block_perform hb.calm, followTo_eq, hafter]
  exact ⟨_, rfl⟩

/-- A refused block stops behind its first node. -/
theorem Sound.block_of_refuses (hb : b.Sound) (h : b.Refuses statements current) :
    ∃ role label, b.block statements current =
      (b.extend [.node ⟨role, b.given + 1, label⟩],
        .error (.unknownSource (.text current))) := by
  obtain ⟨role, hrole, hunknown, hfirst⟩ := h
  obtain ⟨label, more, hsteps⟩ :=
    @Part.exists_block_steps b.given ⟨.outer current, []⟩ b.limit statements role hrole
  refine ⟨role, label, ?_⟩
  -- The first node is neither `current` nor followed by an edge that finds it.
  have hnone : ∀ node ∈ (b.extend [.node ⟨role, b.given + 1, label⟩]).graph.nodes,
      node.id ≠ .text current := by
    intro node hnode hid
    rcases (@has_extend_node_iff b ⟨role, b.given + 1, label⟩ (.outer current)).mp
      ⟨node, hnode, hid⟩ with hold | hnew
    · exact hunknown (has_outer_iff.mp hold)
    · exact hfirst hnew
  rw [block_perform hb.calm, followTo_eq, hsteps, Part.entrySteps, List.cons_append,
    follow_next_node hb.calm.numbered, List.cons_append, follow_edge_run]
  simp only [Link.edge, Vertex.id_outer, Graph.addEdge_of_unknown hnone]

/-- Of every builder: programs are never refused, a block is refused exactly when its first node is
to hang off an unknown node, and then that first node is all that is left of it. -/
theorem block_refused_iff (limit : Int) (direction : Text) (operations : List Operation)
    (statements : List Statement) (current : Text) :
    (∃ exit, ((reached limit direction operations).build statements).2 = .ok exit) ∧
      ((∃ reason, ((reached limit direction operations).block statements current).2 =
          .error reason) ↔ (reached limit direction operations).Refuses statements current) ∧
      ∀ reason, ((reached limit direction operations).block statements current).2 = .error reason →
        (reached limit direction operations).LeftByRefusal
          ((reached limit direction operations).block statements current).1 current reason := by
  have hb : (reached limit direction operations).Sound :=
    (sound_new limit direction).performAll operations
  have hrefuses : ∀ reason,
      ((reached limit direction operations).block statements current).2 = .error reason →
        (reached limit direction operations).Refuses statements current := by
    intro reason hreason
    by_cases h : (reached limit direction operations).Refuses statements current
    · exact h
    · obtain ⟨exit, hexit⟩ := hb.exists_block_ok h
      rw [hexit] at hreason
      cases hreason
  refine ⟨hb.exists_build_ok statements, ⟨?_, ?_⟩, ?_⟩
  · rintro ⟨reason, hreason⟩
    exact hrefuses reason hreason
  · intro h
    obtain ⟨role, label, hblock⟩ := hb.block_of_refuses h
    exact ⟨_, by rw [hblock]⟩
  · intro reason hreason
    obtain ⟨role, label, hblock⟩ := hb.block_of_refuses (hrefuses reason hreason)
    rw [hblock] at hreason ⊢
    obtain rfl := Except.error.inj hreason
    exact ⟨rfl, rfl, ⟨_, rfl⟩, List.append_nil _, rfl, rfl⟩

/-- A call that is to hang off a node that nobody has drawn. -/
theorem block_refused_iff_call :
    (reached 25 "TD".toList refusedOperations).Refuses [.plain "f()".toList []] "ret9".toList ∧
      (reached 25 "TD".toList refusedOperations).LeftByRefusal
        ((reached 25 "TD".toList refusedOperations).block [.plain "f()".toList []]
          "ret9".toList).1 "ret9".toList (.unknownSource (.text "ret9".toList)) := by
  have herror : ((reached 25 "TD".toList refusedOperations).block [.plain "f()".toList []]
      "ret9".toList).2 = .error (.unknownSource (.text "ret9".toList)) := rfl
  obtain ⟨-, hiff, hleft⟩ :=
    block_refused_iff 25 "TD".toList refusedOperations [.plain "f()".toList []] "ret9".toList
  exact ⟨hiff.mp ⟨_, herror⟩, hleft _ herror⟩

/-- The same call may hang off itself. -/
example : ((reached 25 "TD".toList refusedOperations).block [.plain "f()".toList []]
    "call4".toList).2 = .ok "call4".toList := rfl

end Builder

end Flowchart
