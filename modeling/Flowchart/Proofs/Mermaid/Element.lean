import Flowchart.Proofs.Mermaid.Label
import Flowchart.Proofs.Mermaid.Line

/-!
# Rendered lines are read as what they were rendered from

The line of a node is read as the declaration of its identifier, and the line of an edge as an
edge between its ends, whatever stands in the label of the node. For that the identifiers have to
be words and the label of the edge may hold no bar. Each line is put together as the form of its
kind says (`Declares`, `DrawsEdge`).
-/

set_option autoImplicit false

namespace Flowchart.Mermaid

open Text

/-- The line of a node declares the node. -/
theorem element_nodeLine {node : Node} (h : node.id.shown.IsWord) :
    element (nodeLine node) = .declaration node.id.shown := by
  -- The quote before the label comes behind an opening mark.
  have hmark : ∀ shape, ∃ mark ∈ openingMarks, (outline shape).1 = mark ++ ['"'] := by
    intro shape
    cases shape with
    | round => exact ⟨"((".toList, by decide, rfl⟩
    | diamond => exact ⟨['{'], by decide, rfl⟩
    | rect => exact ⟨['['], by decide, rfl⟩
  unfold nodeLine
  obtain ⟨mark, hmark, houtline⟩ := hmark ((Shape.ofValue? node.shape).getD .rect)
  simp only [houtline, List.append_assoc]
  exact element_eq_declaration_iff.mpr ⟨h, [], rfl, mark, hmark, _, rfl⟩

/-- The line of an edge draws the edge. -/
theorem element_edgeLine {edge : Edge} (hsource : edge.source.shown.IsWord)
    (htarget : edge.target.shown.IsWord) (hlabel : '|' ∉ escapeLabel edge.label) :
    element (edgeLine edge) = .edge edge.source.shown edge.target.shown := by
  have hspace : IsGap [' '] := ⟨List.cons_ne_nil _ _, by decide⟩
  rw [element_eq_edge_iff]
  unfold edgeLine
  by_cases hempty : (escapeLabel edge.label).isEmpty = true
  · have harrow : " --> ".toList = [' '] ++ ("-->".toList ++ [' ']) := rfl
    refine ⟨hsource, htarget, [' '], [], [' '], [], hspace, Or.inl rfl, hspace, rfl, ?_⟩
    simp only [if_pos hempty, harrow, List.append_assoc, List.nil_append, List.append_nil]
  · have hopen : " -->|\"".toList = [' '] ++ ("-->".toList ++ ['|', '"']) := rfl
    have hclose : "\"| ".toList = ['"', '|', ' '] := rfl
    -- The quotes around the label are no bars either.
    have hbar : '|' ∉ '"' :: escapeLabel edge.label ++ ['"'] := by
      simp [hlabel]
    refine ⟨hsource, htarget, [' '], _, [' '], [], hspace, Or.inr ⟨_, rfl, hbar⟩, hspace, rfl, ?_⟩
    simp only [if_neg hempty, hopen, hclose, List.append_assoc, List.cons_append, List.nil_append,
      List.append_nil]

end Flowchart.Mermaid
