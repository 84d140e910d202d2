import Flowchart.Drawing.Role

/-!
# Additions to a graph

What an addition to a graph does when it is accepted, and when it is: a node needs one of the
shapes and an identifier of its own, and an edge needs both its ends in the graph.
-/

set_option autoImplicit false

namespace Flowchart

/-- A string stands for itself in comparisons. -/
theorem Value.plainForm_ofRaw (s : RawText) : (ofRaw s).plainForm = ofRaw s := by
  unfold ofRaw
  split <;> rfl

/-- A value counts as a string only if it is that string. -/
theorem Value.matchesValue_ofRaw {v : Value} {s : RawText} :
    v.matchesValue (ofRaw s) = true ↔ v = ofRaw s := by
  have hint : ∀ n, Value.int n ≠ ofRaw s := by
    intro n h
    unfold ofRaw at h
    split at h <;> cases h
  have hbool : ∀ b, Value.bool b ≠ ofRaw s := by
    intro b h
    unfold ofRaw at h
    split at h <;> cases h
  rw [matchesValue, decide_eq_true_iff, plainForm_ofRaw]
  cases v with
  | bool b => exact iff_of_false (hint _) (hbool b)
  | _ => rfl

theorem Value.matchesValue_text {v : Value} {t : Text} :
    v.matchesValue (.text t) = true ↔ v = .text t := by
  rw [← ofRaw_ofText]
  exact matchesValue_ofRaw

theorem Shape.ofValue?_name (shape : Shape) : Shape.ofValue? (.text shape.name) = some shape := by
  cases shape <;> decide

namespace Graph

/-- A text is an identifier of the graph exactly when a node has it. -/
theorem hasNode_text {g : Graph} {t : Text} :
    g.hasNode (.text t) = true ↔ ∃ node ∈ g.nodes, node.id = .text t := by
  simp [hasNode, List.any_eq_true, Value.matchesValue_text]

/-- An accepted node comes behind the others, and nothing else changes. -/
theorem addNode_ok {g after : Graph} {node : Node} (h : g.addNode node = .ok after) :
    after = { g with nodes := g.nodes ++ [node] } := by
  unfold addNode at h
  split at h
  · cases h
  · split at h
    · cases h
    · cases h
      rfl

/-- An accepted edge comes behind the others, and nothing else changes. -/
theorem addEdge_ok {g after : Graph} {edge : Edge} (h : g.addEdge edge = .ok after) :
    after = { g with edges := g.edges ++ [edge] } := by
  unfold addEdge at h
  split at h
  · cases h
  · split at h
    · cases h
    · cases h
      rfl

/-- A node with a known shape and a new identifier is accepted. -/
theorem addNode_of_new {g : Graph} {t : Text} {label : Value} {shape : Shape}
    (h : ∀ node ∈ g.nodes, node.id ≠ .text t) :
    g.addNode ⟨.text t, label, .text shape.name⟩ =
      .ok { g with nodes := g.nodes ++ [⟨.text t, label, .text shape.name⟩] } := by
  have hid : g.hasNode (.text t) = false := by
    cases hhas : g.hasNode (.text t) with
    | false => rfl
    | true =>
        obtain ⟨node, hmem, hnode⟩ := hasNode_text.mp hhas
        exact absurd hnode (h node hmem)
  simp [addNode, Shape.ofValue?_name, hid]

/-- An edge between two nodes of the graph is accepted. -/
theorem addEdge_of_mem {g : Graph} {s t : Text} {label : Value}
    (hs : ∃ node ∈ g.nodes, node.id = .text s) (ht : ∃ node ∈ g.nodes, node.id = .text t) :
    g.addEdge ⟨.text s, .text t, label⟩ =
      .ok { g with edges := g.edges ++ [⟨.text s, .text t, label⟩] } := by
  simp [addEdge, hasNode_text.mpr hs, hasNode_text.mpr ht]

/-- An edge from a text that no node has is refused for that text. -/
theorem addEdge_of_unknown {g : Graph} {s : Text} {target label : Value}
    (hs : ∀ node ∈ g.nodes, node.id ≠ .text s) :
    g.addEdge ⟨.text s, target, label⟩ = .error (.unknownSource (.text s)) := by
  have hid : ¬ g.hasNode (.text s) = true := by
    intro hhas
    obtain ⟨node, hmem, hnode⟩ := hasNode_text.mp hhas
    exact hs node hmem hnode
  simp [addEdge, hid]

/-- Both ends of an accepted edge between texts are nodes. -/
theorem ends_of_addEdge_ok {g after : Graph} {s t : Text} {label : Value}
    (h : g.addEdge ⟨.text s, .text t, label⟩ = .ok after) :
    (∃ node ∈ g.nodes, node.id = .text s) ∧ ∃ node ∈ g.nodes, node.id = .text t := by
  unfold addEdge at h
  split at h
  · cases h
  · rename_i hs
    split at h
    · cases h
    · rename_i ht
      exact ⟨hasNode_text.mp (by simpa using hs), hasNode_text.mp (by simpa using ht)⟩

/-! ## Identifiers behind an addition -/

/-- A node with a new identifier keeps the identifiers apart. -/
theorem nodup_ids_append {nodes : List Node} {node : Node} (h : (nodes.map Node.id).Nodup)
    (hnew : node.id ∉ nodes.map Node.id) : ((nodes ++ [node]).map Node.id).Nodup := by
  rw [List.map_append, List.map_singleton]
  refine List.nodup_append.mpr ⟨h, by simp, ?_⟩
  rintro id hid other hother rfl
  rw [List.mem_singleton.mp hother] at hid
  exact hnew hid

theorem ids_subset_append (nodes : List Node) (node : Node) :
    nodes.map Node.id ⊆ (nodes ++ [node]).map Node.id := by
  rw [List.map_append]
  exact List.subset_append_left _ _

end Graph

end Flowchart
