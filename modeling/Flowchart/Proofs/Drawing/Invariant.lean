import Flowchart.Proofs.Drawing.Simulation

/-!
# What every operation on a builder restores

A builder may be used again and again, behind any node and also after a refusal. `Builder.Sound`
is what holds between its operations: the count of identifiers is the number of nodes, every
identifier says which node it is, and nothing of an earlier drawing is left over.

Main statement: `sound_performAll`, a new builder is sound after every sequence of operations.
The graph refuses an edge now and then, but never a node, so every step on the way to a refusal
keeps the builder sound (`Builder.Sound.follow`).
-/

set_option autoImplicit false

namespace Flowchart

open Drawing

/-! ## Operations -/

/-- Something that a builder can be told to draw. -/
inductive Operation where
  | build (statements : List Statement)
  | block (statements : List Statement) (current : Text)
deriving DecidableEq, Repr

namespace Builder

/-- The builder after an operation, and what the operation gives. -/
def operate (b : Builder) : Operation → Builder × Except GraphError Text
  | .build statements => b.build statements
  | .block statements current => b.block statements current

/-- The builder after operations, each done whether or not those before it were refused. -/
def performAll (b : Builder) (operations : List Operation) : Builder :=
  operations.foldl (fun b operation => (b.operate operation).1) b

/-! ## Soundness -/

/-- The words that identifiers begin with. -/
def stems : List Text :=
  ["start", "fn", "if", "loop", "log", "call", "stmt", "ret", "join"].map String.toList

def shapeNames : List Text := ["round", "diamond", "rect"].map String.toList

/-- What holds of a builder between its operations. -/
structure Sound (b : Builder) : Prop where
  /-- As many identifiers have been given out as there are nodes. -/
  given : b.given = b.graph.nodes.length
  /-- The identifier of a node is a word and the place of the node, counted from one. -/
  ids : ∀ k (h : k < b.graph.nodes.length),
    ∃ word ∈ stems, b.graph.nodes[k].id = .text (word ++ Text.decimal (k + 1))
  distinct : (b.graph.nodes.map Node.id).Nodup
  shapes : ∀ node ∈ b.graph.nodes, ∃ name ∈ shapeNames, node.shape = .text name
  ends : ∀ edge ∈ b.graph.edges,
    edge.source ∈ b.graph.nodes.map Node.id ∧ edge.target ∈ b.graph.nodes.map Node.id
  waiting : b.waiting = []
  depth : b.depth = 0

theorem sound_new (limit : Int) (direction : Text) : (new limit direction).Sound where
  given := rfl
  ids := fun k h => absurd h (Nat.not_lt_zero k)
  distinct := List.nodup_nil
  shapes := fun _ h => absurd h List.not_mem_nil
  ends := fun _ h => absurd h List.not_mem_nil
  waiting := rfl
  depth := rfl

/-! ## One addition -/

theorem stem_mem_stems (role : Role) : role.stem ∈ stems := by
  cases role <;> decide

theorem exists_role_of_mem_stems {word : Text} (h : word ∈ stems) :
    ∃ role : Role, role.stem = word := by
  simp only [stems, List.map_cons, List.map_nil, List.mem_cons, List.not_mem_nil, or_false] at h
  rcases h with rfl | rfl | rfl | rfl | rfl | rfl | rfl | rfl | rfl
  · exact ⟨.start, rfl⟩
  · exact ⟨.function, rfl⟩
  · exact ⟨.conditional, rfl⟩
  · exact ⟨.loop, rfl⟩
  · exact ⟨.log, rfl⟩
  · exact ⟨.call, rfl⟩
  · exact ⟨.step, rfl⟩
  · exact ⟨.result, rfl⟩
  · exact ⟨.join, rfl⟩

theorem name_mem_shapeNames (shape : Shape) : shape.name ∈ shapeNames := by
  cases shape <;> decide

/-- A sound builder is one that parts can be drawn with. -/
theorem Sound.calm {b : Builder} (hb : b.Sound) : b.Calm b.limit 0 := by
  refine ⟨hb.waiting, ?_, rfl, hb.depth⟩
  intro node hnode
  obtain ⟨k, hk, rfl⟩ := List.mem_iff_getElem.mp hnode
  obtain ⟨word, hword, hid⟩ := hb.ids k hk
  obtain ⟨role, rfl⟩ := exists_role_of_mem_stems hword
  have hgiven := hb.given
  exact ⟨role, k + 1, hid, by omega⟩

/-- A builder stays sound when it gets a node with the next number. -/
theorem Sound.addNode {b : Builder} (hb : b.Sound) (role : Role) (label : Text) :
    Sound { b with
      given := b.given + 1
      graph := { b.graph with nodes := b.graph.nodes ++ [nodeOf role (b.given + 1) label] } } := by
  -- The identifier is new, since the numbers of the others have been given out before.
  have hnew : (nodeOf role (b.given + 1) label).id ∉ b.graph.nodes.map Node.id := by
    intro hmem
    obtain ⟨node, hnode, hid⟩ := List.mem_map.mp hmem
    obtain ⟨role', number, hid', hle⟩ := hb.calm.numbered node hnode
    rw [hid'] at hid
    have hnumber : number = b.given + 1 := (nodeId_inj (Value.text.inj hid)).2
    omega
  refine ⟨?_, ?_, ?_, ?_, ?_, hb.waiting, hb.depth⟩
  · simp [hb.given]
  · intro k hk
    rw [List.length_append, List.length_singleton] at hk
    by_cases hlast : k < b.graph.nodes.length
    · rw [List.getElem_append_left hlast]
      exact hb.ids k hlast
    · have hk' : k = b.given := by
        rw [hb.given]
        omega
      refine ⟨role.stem, stem_mem_stems role, ?_⟩
      simp [hk', hb.given, nodeOf, nodeId]
  · exact Graph.nodup_ids_append hb.distinct hnew
  · intro node hnode
    rcases List.mem_append.mp hnode with hold | hlast
    · exact hb.shapes node hold
    · rw [List.mem_singleton.mp hlast]
      exact ⟨role.shape.name, name_mem_shapeNames role.shape, rfl⟩
  · intro edge hedge
    have hids := Graph.ids_subset_append b.graph.nodes (nodeOf role (b.given + 1) label)
    exact (hb.ends edge hedge).imp (@hids _) (@hids _)

/-- A builder stays sound when it gets an edge between two of its nodes. -/
theorem Sound.addEdge {b : Builder} (hb : b.Sound) {edge : Edge}
    (hsource : edge.source ∈ b.graph.nodes.map Node.id)
    (htarget : edge.target ∈ b.graph.nodes.map Node.id) :
    Sound { b with graph := { b.graph with edges := b.graph.edges ++ [edge] } } := by
  refine ⟨hb.given, hb.ids, hb.distinct, hb.shapes, ?_, hb.waiting, hb.depth⟩
  intro edge' hedge
  rcases List.mem_append.mp hedge with hold | hlast
  · exact hb.ends edge' hold
  · rw [List.mem_singleton.mp hlast]
    exact ⟨hsource, htarget⟩

/-! ## Steps, operations and sequences of operations -/

/-- The nodes of the steps have the next numbers. -/
def Consecutive (given : Nat) (steps : List Step) : Prop :=
  (Step.marks steps).map Mark.number = List.range' (given + 1) (Step.marks steps).length

theorem consecutive_steps (p : Part) (given : Nat) (cursor : Cursor Vertex) :
    Consecutive given (p.steps given cursor) := by
  have hnumbers := p.marks_numbers given cursor
  rw [← p.length_marks given cursor] at hnumbers
  exact hnumbers

/-- A step with the next number may go before consecutive ones. -/
theorem consecutive_node {given : Nat} {mark : Mark} {steps : List Step} :
    Consecutive given (.node mark :: steps) ↔
      mark.number = given + 1 ∧ Consecutive (given + 1) steps := by
  simp [Consecutive, List.range'_succ]

/-- Steps with the next numbers keep a builder sound, wherever the graph stops them. -/
theorem Sound.follow {steps : List Step} {b : Builder} (hb : b.Sound)
    (hsteps : Consecutive b.given steps) (exit : Vertex) :
    (b.followTo steps exit).1.Sound := by
  rw [followTo_eq]
  induction steps generalizing b with
  | nil => exact hb
  | cons step steps ih =>
      cases step with
      | node mark =>
          obtain ⟨role, number, label⟩ := mark
          obtain ⟨hnumber, hmore⟩ := consecutive_node.mp hsteps
          obtain rfl : number = b.given + 1 := hnumber
          -- A node with the next number is never refused.
          rw [follow_node_run, hb.calm.numbered.addNode role label]
          exact ih (hb.addNode role label) hmore
      | edge link =>
          rw [follow_edge_run]
          cases hadd : b.graph.addEdge link.edge with
          -- A refused edge leaves the graph as it was.
          | error reason => exact hb
          | ok graph =>
              obtain ⟨⟨source, hsource, hs⟩, target, htarget, ht⟩ := Graph.ends_of_addEdge_ok hadd
              rw [Graph.addEdge_ok hadd]
              have hsound := @Sound.addEdge b hb link.edge
                (List.mem_map.mpr ⟨source, hsource, hs⟩) (List.mem_map.mpr ⟨target, htarget, ht⟩)
              exact ih hsound hsteps

/-- Every operation keeps a builder sound, a refused one too. -/
theorem Sound.operate {b : Builder} (hb : b.Sound) (operation : Operation) :
    (b.operate operation).1.Sound := by
  cases operation with
  | build statements =>
      rw [Builder.operate, build_perform hb.calm statements]
      exact hb.follow (consecutive_node.mpr ⟨rfl, consecutive_steps _ _ _⟩) _
  | block statements current =>
      rw [Builder.operate, block_perform hb.calm statements current]
      exact hb.follow (consecutive_steps _ _ _) _

theorem Sound.performAll {b : Builder} (hb : b.Sound) (operations : List Operation) :
    (b.performAll operations).Sound := by
  induction operations generalizing b with
  | nil => exact hb
  | cons operation operations ih => exact ih (hb.operate operation)

/-- A builder is sound after every sequence of operations, refused ones included. -/
theorem sound_performAll (limit : Int) (direction : Text) (operations : List Operation) :
    ((new limit direction).performAll operations).Sound :=
  (sound_new limit direction).performAll operations

end Builder

end Flowchart
