import Flowchart.Proofs.Drawing.Program
import Flowchart.Proofs.Mermaid.Diagram

/-!
# The Mermaid text of a source is valid

The diagram of a program has no faults, and its tally is that of the graph
(`check_ofSource`). The graph of a program is legible: its identifiers are words that are all
different, its edges lead from node to node, and their labels are the answers at conditionals.
-/

set_option autoImplicit false

namespace Flowchart

open Text Mermaid

/-! ## Mentions and tallies -/

namespace Mermaid

/-- Declarations are known to all that follows them. -/
theorem earlyMentions_declarations (ids declared : List Text) (more : List Element) :
    earlyMentions declared (ids.map Element.declaration ++ more) =
      earlyMentions (ids.reverse ++ declared) more := by
  induction ids generalizing declared with
  | nil => rfl
  | cons id ids ih =>
      rw [List.map_cons, List.cons_append, earlyMentions, ih, List.reverse_cons, List.append_assoc,
        List.singleton_append]

/-- Each end of an edge that is not known is mentioned early. -/
theorem earlyMentions_edges (declared : List Text) (edges : List Edge) :
    earlyMentions declared
        (edges.map fun edge => Element.edge edge.source.shown edge.target.shown) =
      edges.flatMap fun edge =>
        [edge.source.shown, edge.target.shown].filter fun id => !declared.contains id := by
  induction edges with
  | nil => rfl
  | cons edge edges ih => rw [List.map_cons, earlyMentions, ih, List.flatMap_cons]

theorem eraseDups_of_nodup {ts : List Text} (h : ts.Nodup) : ts.eraseDups = ts := by
  induction ts with
  | nil => rfl
  | cons t ts ih =>
      rw [List.nodup_cons] at h
      have hfilter : ts.filter (fun u => !u == t) = ts := by
        rw [List.filter_eq_self]
        intro u hu
        have hne : u ≠ t := fun heq => h.1 (heq ▸ hu)
        simpa using hne
      rw [List.eraseDups_cons, hfilter, ih h.2]

theorem eraseDups_append_of_subset {ts us : List Text} (h : ts.Nodup) (hsub : ∀ u ∈ us, u ∈ ts) :
    (ts ++ us).eraseDups = ts := by
  -- What is there already is removed from the second list.
  have hremove : us.removeAll ts = [] := by
    rw [List.removeAll, List.filter_eq_nil_iff]
    intro u hu
    simpa using hsub u hu
  rw [List.eraseDups_append, eraseDups_of_nodup h, hremove, List.eraseDups_nil, List.append_nil]

/-! ## Legible graphs -/

variable {g : Graph}

/-- The identifiers of the nodes, as they are shown. -/
def shownIds (g : Graph) : List Text := g.nodes.map fun node => node.id.shown

/-- The ends of the edges, as they are shown. -/
def shownEnds (g : Graph) : List Text :=
  g.edges.flatMap fun edge => [edge.source.shown, edge.target.shown]

theorem not_isAllBlank_mermaid (hg : g.Legible) (fenced : Bool) :
    isAllBlank (g.mermaid fenced) = false := by
  obtain ⟨d, hd⟩ := exists_mermaidLines hg
  have hjoin := (@tight_join d (bodyLines g) (bodyLines_ne_nil hg)
    fun line => isLine_of_mem_bodyLines hg).1
  unfold Graph.mermaid
  simp only [hd]
  cases fenced with
  | false => exact hjoin.not_isAllBlank
  | true => exact (tight_fence _).not_isAllBlank

/-- A legible graph has no fault exactly when each end of its edges is declared above them. -/
theorem check_mermaid (hg : g.Legible) (fenced : Bool) :
    check (g.mermaid fenced) = none ↔ undeclared (g.mermaid fenced) = [] := by
  obtain ⟨d, hd⟩ := contentLines_mermaid hg fenced
  obtain ⟨line, lines, hlines⟩ := List.exists_cons_of_ne_nil (bodyLines_ne_nil hg)
  have hblank : ¬ isAllBlank (g.mermaid fenced) = true := by
    rw [not_isAllBlank_mermaid hg fenced]
    exact Bool.false_ne_true
  have hheader : ¬ (!isHeader (header d)) = true := by
    rw [isHeader_header]
    exact Bool.false_ne_true
  unfold check
  simp only [if_neg hblank, hd, hlines, if_neg hheader]
  cases undeclared (g.mermaid fenced) with
  | nil => simp
  | cons id ids => simp

theorem undeclared_mermaid (hg : g.Legible) (fenced : Bool) :
    undeclared (g.mermaid fenced) =
      ((shownEnds g).filter fun id => !(shownIds g).contains id).eraseDups := by
  have hids : (g.nodes.map fun node => Element.declaration node.id.shown) =
      (shownIds g).map Element.declaration := by
    rw [shownIds, List.map_map]
    rfl
  have hcontains : ∀ id, (shownIds g).reverse.contains id = (shownIds g).contains id := by
    intro id
    rw [Bool.eq_iff_iff]
    simp
  rw [undeclared, elements_mermaid hg fenced, hids, earlyMentions_declarations,
    List.append_nil, earlyMentions_edges]
  simp only [hcontains, shownEnds, List.filter_flatMap]

theorem tally_mermaid (hg : g.Legible) (fenced : Bool) :
    tally (g.mermaid fenced) =
      ⟨(shownIds g ++ shownEnds g).eraseDups.length, g.edges.length⟩ := by
  have hids : ((g.nodes.map fun node => Element.declaration node.id.shown) ++
      g.edges.map fun edge => Element.edge edge.source.shown edge.target.shown).flatMap
        Element.ids = shownIds g ++ shownEnds g := by
    rw [List.flatMap_append, List.flatMap_map, List.flatMap_map]
    exact congrArg (· ++ shownEnds g) List.map_eq_flatMap.symm
  have hedges : ((g.nodes.map fun node => Element.declaration node.id.shown) ++
      g.edges.map fun edge => Element.edge edge.source.shown edge.target.shown).filter
        Element.isEdge =
      g.edges.map fun edge => Element.edge edge.source.shown edge.target.shown := by
    have hnodes : ∀ element ∈ g.nodes.map fun node => Element.declaration node.id.shown,
        ¬ element.isEdge = true := by
      intro element helement
      obtain ⟨node, _, rfl⟩ := List.mem_map.mp helement
      exact Bool.false_ne_true
    have hedges : ∀ element ∈ g.edges.map fun edge =>
        Element.edge edge.source.shown edge.target.shown, element.isEdge = true := by
      intro element helement
      obtain ⟨edge, _, rfl⟩ := List.mem_map.mp helement
      rfl
    rw [List.filter_append, List.filter_eq_nil_iff.mpr hnodes, List.filter_eq_self.mpr hedges,
      List.nil_append]
  rw [tally, elements_mermaid hg fenced, hids, hedges, List.length_map]

end Mermaid

/-! ## The graph of a program -/

/-- What the links of a part can say. -/
def answers : List Text := [[], "Yes".toList, "No".toList]

namespace Part

variable {given : Nat} {cursor : Cursor Vertex}

theorem label_exit_mem (p : Part) (h : cursor.label ∈ answers) :
    (p.exit given cursor).label ∈ answers := by
  rcases p.exit_eq_or given cursor with ⟨hexit, _⟩ | ⟨⟨mark, _, hexit⟩, _⟩
  · rw [hexit]
    exact h
  · rw [hexit]
    exact List.mem_cons_self

/-- The links of a part say the answers at its conditionals and nothing else. -/
theorem label_mem_answers {p : Part} (hcursor : cursor.label ∈ answers) {link : Link}
    (h : link ∈ p.links given cursor) : link.label ∈ answers := by
  induction p generalizing given cursor with
  | nothing => simp at h
  | single role label =>
      obtain rfl := List.mem_singleton.mp h
      exact hcursor
  | andThen first second ihFirst ihSecond =>
      rw [links_andThen, List.mem_append] at h
      rcases h with h | h
      · exact ihFirst hcursor h
      · exact ihSecond (first.label_exit_mem hcursor) h
  | fork label yes no ihYes ihNo =>
      have hyes : (yesAt given label).label ∈ answers := by simp [yesAt, answers]
      have hno : (noAt given label).label ∈ answers := by simp [noAt, answers]
      simp only [links_fork, List.mem_cons, List.mem_append, List.not_mem_nil, or_false] at h
      rcases h with rfl | h | h | rfl | rfl
      · exact hcursor
      · exact ihYes hyes h
      · exact ihNo hno h
      · exact yes.label_exit_mem hyes
      · exact no.label_exit_mem hno
  | repeated label body ihBody =>
      have hbody : (bodyAt given label).label ∈ answers := by simp [bodyAt, answers]
      simp only [links_repeated, List.mem_cons, List.mem_append, List.not_mem_nil, or_false] at h
      rcases h with rfl | h | rfl
      · exact hcursor
      · exact ihBody hbody h
      · exact body.label_exit_mem hbody

end Part

theorem bar_not_mem_answer {label : Text} (h : label ∈ answers) :
    '|' ∉ escapeLabel (.text label) := by
  simp only [answers, List.mem_cons, List.not_mem_nil, or_false] at h
  rcases h with rfl | rfl | rfl <;> decide

theorem isWord_stem (role : Role) : role.stem.IsWord := by
  have hword : role.stem.all isWord = true := by cases role <;> decide
  refine ⟨?_, List.all_eq_true.mp hword⟩
  cases role <;> exact List.cons_ne_nil _ _

theorem isWord_nodeId (role : Role) (number : Nat) : (nodeId role number).IsWord := by
  obtain ⟨hne, hword⟩ := isWord_stem role
  refine ⟨List.append_ne_nil_of_left_ne_nil hne _, ?_⟩
  intro c hc
  rcases List.mem_append.mp hc with hc | hc
  · exact hword c hc
  · exact isWord_of_isDigit (isDigit_of_mem_decimal hc)

section Program

variable (limit : Int) (direction : Text) (statements : List Statement)

/-- The graph of a program can be read back from its Mermaid text. -/
theorem legible_ofStatements : (Graph.ofStatements limit direction statements).Legible := by
  have hg := drawn_ofStatements limit direction statements
  constructor
  · rw [hg.nodes]
    exact List.cons_ne_nil _ _
  · intro node hnode
    obtain ⟨mark, _, rfl⟩ := hg.exists_mark hnode
    exact isWord_nodeId mark.role mark.number
  · intro edge hedge
    rw [hg.edges] at hedge
    obtain ⟨link, hlink, rfl⟩ := List.mem_map.mp hedge
    obtain ⟨⟨source, _, hs⟩, target, _, ht⟩ := hg.ends link hlink
    rw [Link.edge, hs, ht]
    exact ⟨isWord_nodeId source.role source.number, isWord_nodeId target.role target.number⟩
  · intro edge hedge
    rw [hg.edges] at hedge
    obtain ⟨link, hlink, rfl⟩ := List.mem_map.mp hedge
    exact bar_not_mem_answer (Part.label_mem_answers List.mem_cons_self hlink)

/-- No two nodes of a program have the same identifier. -/
theorem nodup_shownIds : (shownIds (Graph.ofStatements limit direction statements)).Nodup := by
  have hg := drawn_ofStatements limit direction statements
  rw [shownIds, hg.nodes, List.map_map]
  -- The marks are all different, and an identifier gives the number of its mark back.
  refine List.Nodup.map_on ?_ hg.nodup
  intro mark hmark other hother hid
  exact hg.eq_of_number_eq hmark hother (nodeId_inj hid).2

/-- The edges of a program lead from node to node. -/
theorem shownEnds_subset {id : Text}
    (h : id ∈ shownEnds (Graph.ofStatements limit direction statements)) :
    id ∈ shownIds (Graph.ofStatements limit direction statements) := by
  have hg := drawn_ofStatements limit direction statements
  obtain ⟨edge, hedge, hid⟩ := List.mem_flatMap.mp h
  rw [hg.edges] at hedge
  obtain ⟨link, hlink, rfl⟩ := List.mem_map.mp hedge
  obtain ⟨⟨source, hsource, hs⟩, target, htarget, ht⟩ := hg.ends link hlink
  rw [Link.edge, hs, ht, List.mem_cons, List.mem_singleton] at hid
  rcases hid with rfl | rfl
  · exact List.mem_map.mpr ⟨source.node, hg.node_mem hsource, rfl⟩
  · exact List.mem_map.mpr ⟨target.node, hg.node_mem htarget, rfl⟩

/-- The diagram of a program has no faults. -/
theorem check_ofStatements (fenced : Bool) :
    check ((Graph.ofStatements limit direction statements).mermaid fenced) = none := by
  have hlegible := legible_ofStatements limit direction statements
  have hknown : (shownEnds (Graph.ofStatements limit direction statements)).filter
      (fun id => !(shownIds (Graph.ofStatements limit direction statements)).contains id) = [] := by
    rw [List.filter_eq_nil_iff]
    intro id hid
    simpa using shownEnds_subset limit direction statements hid
  rw [check_mermaid hlegible fenced, undeclared_mermaid hlegible, hknown, List.eraseDups_nil]

/-- The tally of the diagram of a program is that of its graph. -/
theorem tally_ofStatements (fenced : Bool) :
    tally ((Graph.ofStatements limit direction statements).mermaid fenced) =
      ⟨(Graph.ofStatements limit direction statements).nodes.length,
        (Graph.ofStatements limit direction statements).edges.length⟩ := by
  have hlegible := legible_ofStatements limit direction statements
  rw [tally_mermaid hlegible, eraseDups_append_of_subset (nodup_shownIds limit direction statements)
    fun id => shownEnds_subset limit direction statements, shownIds, List.length_map]

end Program

/-- The diagram of an empty graph has no faults. -/
theorem check_empty (fenced : Bool) : check (({} : Graph).mermaid fenced) = none := by
  cases fenced <;> decide +kernel

/-- The Mermaid text of every source is valid, and the tally of the diagram is that of the graph
unless the source is blank. -/
theorem valid_ofSource (limit : Int) (direction : Text) (fenced : Bool) (source : Text) :
    check (Mermaid.ofSource limit direction fenced source) = none ∧
      (isAllBlank source = false →
        tally (Mermaid.ofSource limit direction fenced source) =
          ⟨(Graph.ofSource limit direction source).nodes.length,
            (Graph.ofSource limit direction source).edges.length⟩) := by
  unfold Mermaid.ofSource
  by_cases hblank : isAllBlank source = true
  · rw [if_pos hblank]
    refine ⟨check_empty fenced, fun h => ?_⟩
    rw [hblank] at h
    cases h
  · rw [if_neg hblank]
    exact ⟨check_ofStatements _ _ _ fenced, fun _ => tally_ofStatements _ _ _ fenced⟩

theorem tally_ofSource_loop :
    isAllBlank "while (a[0]) \x7b f(\"-->|%%\") \x7d".toList = false ∧
      tally (Mermaid.ofSource (-3) "LR".toList true
          "while (a[0]) \x7b f(\"-->|%%\") \x7d".toList) =
        ⟨(Graph.ofSource (-3) "LR".toList
            "while (a[0]) \x7b f(\"-->|%%\") \x7d".toList).nodes.length,
          (Graph.ofSource (-3) "LR".toList
            "while (a[0]) \x7b f(\"-->|%%\") \x7d".toList).edges.length⟩ :=
  ⟨by decide, (valid_ofSource (-3) "LR".toList true
    "while (a[0]) \x7b f(\"-->|%%\") \x7d".toList).2 (by decide)⟩

end Flowchart
