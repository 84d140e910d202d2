import Flowchart.Proofs.Mermaid.Valid
import Mathlib.Data.Finset.Card
import Mathlib.Data.List.Basic

/-!
# What the check finds in a rendered graph

A graph that is read from a document may have edges to or from something that is no node. Main
statement: from the text of a legible graph the checker reads just these ends, in the order in
which the edges mention them first, it counts what the graph has, and it accepts the text exactly
when no edge dangles (`readBack_mermaid`).
-/

set_option autoImplicit false

namespace Flowchart

open Text Mermaid

/-- The edge leads from or to something that is no node of the graph. -/
def Graph.Dangles (g : Graph) (edge : Edge) : Prop :=
  edge.source.shown ∉ shownIds g ∨ edge.target.shown ∉ shownIds g

/-- No text is listed twice, and each comes before those that `mentions` names only later. -/
def InOrderOfFirst (mentions ids : List Text) : Prop :=
  ids.Pairwise fun a b => mentions.idxOf a < mentions.idxOf b

theorem InOrderOfFirst.nodup {mentions ids : List Text} (h : InOrderOfFirst mentions ids) :
    ids.Nodup := by
  refine List.Pairwise.imp ?_ h
  rintro a b hlt rfl
  exact Nat.lt_irrefl _ hlt

/-- Keeping the first of equal texts keeps the order of first mentions.

The induction is on the mentions. Once a text has been taken, the filter leaves it out, so it is
not the same filter in the induction hypothesis. -/
theorem inOrderOfFirst_eraseDups (mentions : List Text) (p : Text → Bool) :
    InOrderOfFirst mentions (mentions.filter p).eraseDups := by
  induction mentions generalizing p with
  | nil => exact List.Pairwise.nil
  | cons first mentions ih =>
      have hlater : ∀ {a b : Text}, a ≠ first → b ≠ first →
          mentions.idxOf a < mentions.idxOf b →
          (first :: mentions).idxOf a < (first :: mentions).idxOf b := by
        intro a b ha hb hlt
        rw [List.idxOf_cons_ne _ ha.symm, List.idxOf_cons_ne _ hb.symm]
        exact Nat.succ_lt_succ hlt
      by_cases hp : p first = true
      · rw [List.filter_cons_of_pos hp, List.eraseDups_cons, List.filter_filter]
        have hne : ∀ id ∈ (mentions.filter fun id => (!id == first) && p id).eraseDups,
            id ≠ first := by
          intro id hid
          have hkept := (List.mem_filter.mp (List.mem_eraseDups.mp hid)).2
          simp only [Bool.and_eq_true, Bool.not_eq_true', beq_eq_false_iff_ne] at hkept
          exact hkept.1
        refine List.pairwise_cons.mpr ⟨?_, ?_⟩
        · intro id hid
          rw [List.idxOf_cons_self, List.idxOf_cons_ne _ (hne id hid).symm]
          exact Nat.succ_pos _
        · exact (ih _).imp_of_mem fun ha hb => hlater (hne _ ha) (hne _ hb)
      · rw [List.filter_cons_of_neg hp]
        have hne : ∀ id ∈ (mentions.filter p).eraseDups, id ≠ first := by
          rintro id hid rfl
          exact hp (List.mem_filter.mp (List.mem_eraseDups.mp hid)).2
        exact (ih p).imp_of_mem fun ha hb => hlater (hne _ ha) (hne _ hb)

/-- Without repetitions there are as many texts in a list as it has different ones. -/
theorem length_eraseDups (ids : List Text) : ids.eraseDups.length = ids.toFinset.card := by
  have hnodup : ids.eraseDups.Nodup := by
    have horder := inOrderOfFirst_eraseDups ids fun _ => true
    rw [List.filter_true] at horder
    exact horder.nodup
  have hsame : ids.eraseDups.toFinset = ids.toFinset := by
    ext id
    rw [List.mem_toFinset, List.mem_toFinset, List.mem_eraseDups]
  rw [← hsame, List.toFinset_card_of_nodup hnodup]

/-- A graph is legible when its own texts are words and hold no bar. -/
theorem legible_of_words {g : Graph} (hnodes : g.nodes ≠ [])
    (hids : ∀ node ∈ g.nodes, node.id.shown.IsWord)
    (hends : ∀ edge ∈ g.edges, edge.source.shown.IsWord ∧ edge.target.shown.IsWord)
    (hlabels : ∀ edge ∈ g.edges, '|' ∉ edge.label.shown) : g.Legible := by
  refine ⟨hnodes, hids, hends, ?_⟩
  intro edge hedge hbar
  have hshown : '|' ∈ (if edge.label.isNothing then [] else edge.label.shown) := by
    rcases (mem_escapeText hbar).1 with h | h | h
    · exact h
    · exact absurd h (by decide)
    · exact absurd h (by decide)
  split at hshown
  · exact absurd hshown List.not_mem_nil
  · exact hlabels edge hedge hshown

theorem mem_undeclared_mermaid {g : Graph} (hg : g.Legible) (fenced : Bool) {id : Text} :
    id ∈ undeclared (g.mermaid fenced) ↔ id ∈ shownEnds g ∧ id ∉ shownIds g := by
  simp [undeclared_mermaid hg fenced, List.mem_eraseDups]

/-- No edge dangles exactly when every end of an edge is a node. -/
theorem forall_not_dangles {g : Graph} :
    (∀ edge ∈ g.edges, ¬ g.Dangles edge) ↔ ∀ id ∈ shownEnds g, id ∈ shownIds g := by
  simp only [Graph.Dangles, not_or, not_not, shownEnds, List.mem_flatMap, List.mem_cons,
    List.not_mem_nil, or_false]
  constructor
  · rintro h id ⟨edge, hedge, rfl | rfl⟩
    · exact (h edge hedge).1
    · exact (h edge hedge).2
  · intro h edge hedge
    exact ⟨h _ ⟨edge, hedge, Or.inl rfl⟩, h _ ⟨edge, hedge, Or.inr rfl⟩⟩

/-- The checker reads from the text of a graph which ends of its edges are no nodes, how many
different identifiers and how many edges there are, and whether an edge dangles. -/
theorem readBack_mermaid {g : Graph} (hnodes : g.nodes ≠ [])
    (hids : ∀ node ∈ g.nodes, node.id.shown.IsWord)
    (hends : ∀ edge ∈ g.edges, edge.source.shown.IsWord ∧ edge.target.shown.IsWord)
    (hlabels : ∀ edge ∈ g.edges, '|' ∉ edge.label.shown) (fenced : Bool) :
    (∀ id, id ∈ undeclared (g.mermaid fenced) ↔ id ∈ shownEnds g ∧ id ∉ shownIds g) ∧
      InOrderOfFirst (shownEnds g) (undeclared (g.mermaid fenced)) ∧
      tally (g.mermaid fenced) =
        ⟨(shownIds g ++ shownEnds g).toFinset.card, g.edges.length⟩ ∧
      (check (g.mermaid fenced) = none ↔ ∀ edge ∈ g.edges, ¬ g.Dangles edge) := by
  have hg := legible_of_words hnodes hids hends hlabels
  refine ⟨fun id => mem_undeclared_mermaid hg fenced, ?_, ?_, ?_⟩
  · rw [undeclared_mermaid hg fenced]
    exact inOrderOfFirst_eraseDups _ _
  · rw [tally_mermaid hg fenced, length_eraseDups]
  · rw [check_mermaid hg fenced, forall_not_dangles, List.eq_nil_iff_forall_not_mem]
    simp only [mem_undeclared_mermaid hg fenced, not_and, not_not]

/-- A graph as a document may hold it: a node twice, a label full of marks, and edges to nowhere. -/
def danglingGraph : Graph where
  nodes := [⟨.text "a".toList, .text "x -->|y| \"%%\"".toList, .text "hexagon".toList⟩,
    ⟨.text "a".toList, .null, .text "round".toList⟩]
  edges := [⟨.text "b".toList, .text "a".toList, .text "no [way]".toList⟩,
    ⟨.text "a".toList, .text "c".toList, .null⟩, ⟨.text "c".toList, .text "b".toList, .text []⟩]
  direction := .text "sideways".toList

theorem readBack_danglingGraph :
    danglingGraph.nodes ≠ [] ∧
      (∀ node ∈ danglingGraph.nodes, node.id.shown.IsWord) ∧
      (∀ edge ∈ danglingGraph.edges, edge.source.shown.IsWord ∧ edge.target.shown.IsWord) ∧
      (∀ edge ∈ danglingGraph.edges, '|' ∉ edge.label.shown) ∧
      (∀ id, id ∈ undeclared (danglingGraph.mermaid true) ↔
        id ∈ shownEnds danglingGraph ∧ id ∉ shownIds danglingGraph) ∧
      tally (danglingGraph.mermaid true) = ⟨3, 3⟩ ∧
      check (danglingGraph.mermaid true) ≠ none := by
  have hnodes : danglingGraph.nodes ≠ [] := by decide
  have hids : ∀ node ∈ danglingGraph.nodes, node.id.shown.IsWord := by decide
  have hends : ∀ edge ∈ danglingGraph.edges,
      edge.source.shown.IsWord ∧ edge.target.shown.IsWord := by decide
  have hlabels : ∀ edge ∈ danglingGraph.edges, '|' ∉ edge.label.shown := by decide
  obtain ⟨hundeclared, -, htally, hcheck⟩ := readBack_mermaid hnodes hids hends hlabels true
  refine ⟨hnodes, hids, hends, hlabels, hundeclared, htally.trans (by decide), ?_⟩
  intro hnone
  exact hcheck.mp hnone _ List.mem_cons_self (Or.inl (by decide))

end Flowchart
