import Flowchart.Proofs.Mermaid.Element
import Flowchart.Proofs.Mermaid.Fences

/-!
# A rendered graph is read back

`Graph.Legible` says of a graph that it can be read back from its Mermaid text: its identifiers
are words, and no label of an edge holds a bar. The text of such a graph has a line of content for
its header, each node and each edge (`contentLines_mermaid`), so what is read from it are the
nodes and edges of the graph in order (`elements_mermaid`), set off in markdown or not.
-/

set_option autoImplicit false

namespace Flowchart

open Text Mermaid

/-- A graph with nodes, whose identifiers are words, and whose edges have no bar in their labels. -/
structure Graph.Legible (g : Graph) : Prop where
  nodes_ne_nil : g.nodes ≠ []
  ids : ∀ node ∈ g.nodes, node.id.shown.IsWord
  ends : ∀ edge ∈ g.edges, edge.source.shown.IsWord ∧ edge.target.shown.IsWord
  labels : ∀ edge ∈ g.edges, '|' ∉ escapeLabel edge.label

namespace Mermaid

/-! ## Lines -/

/-- A line of a diagram, as it is rendered: it begins like a word, ends in something other than a
blank or a back quote, and holds no line feed. -/
structure IsLine (line : Text) : Prop where
  first : ∃ c u, line = c :: u ∧ isWord c = true
  last : ∃ u c, line = u ++ [c] ∧ isBlank c = false ∧ c ≠ '`'
  noLineFeed : '\n' ∉ line

variable {line : Text}

theorem IsLine.tight (h : IsLine line) : line.Tight := by
  obtain ⟨c, u, hfirst, hword⟩ := h.first
  obtain ⟨v, d, hlast, hblank, _⟩ := h.last
  exact ⟨⟨c, u, hfirst, isBlank_of_isWord hword⟩, v, d, hlast, hblank⟩

/-- Indenting a line changes nothing once it is stripped. -/
theorem IsLine.strip_indented (h : IsLine line) : strip (indented line) = line := by
  have hblank : isAllBlank "    ".toList = true := by decide
  rw [indented, strip_append hblank, h.tight.strip]

/-- A line is neither empty nor a comment. -/
theorem IsLine.isContent (h : IsLine line) :
    (!line.isEmpty && !startsWith "%%".toList line) = true := by
  obtain ⟨c, u, rfl, hword⟩ := h.first
  have hne : '%' ≠ c := by
    rintro rfl
    exact absurd hword (by decide)
  have hstart : after? "%%".toList (c :: u) = none := if_neg hne
  rw [startsWith, hstart]
  rfl

theorem lineFeed_not_mem_of_isWord {t : Text} (h : t.IsWord) : '\n' ∉ t := by
  intro hmem
  exact absurd (h.2 _ hmem) (by decide)

theorem exists_last_of_isWord {t : Text} (h : t.IsWord) :
    ∃ u c, t = u ++ [c] ∧ isBlank c = false ∧ c ≠ '`' := by
  obtain ⟨u, c, hlast, hblank⟩ := h.tight.last
  refine ⟨u, c, hlast, hblank, ?_⟩
  rintro rfl
  have hword := h.2 '`' (by rw [hlast]; exact List.mem_append_right _ List.mem_cons_self)
  exact absurd hword (by decide)

/-- A word with something behind it is a line. -/
theorem isLine_append {s m t : Text} (hs : s.IsWord) (hm : '\n' ∉ m) (ht : '\n' ∉ t)
    (hlast : ∃ u c, t = u ++ [c] ∧ isBlank c = false ∧ c ≠ '`') : IsLine (s ++ (m ++ t)) := by
  have hs' := lineFeed_not_mem_of_isWord hs
  constructor
  · obtain ⟨c, u, rfl⟩ := List.exists_cons_of_ne_nil hs.1
    exact ⟨c, u ++ (m ++ t), rfl, hs.2 c List.mem_cons_self⟩
  · obtain ⟨u, c, rfl, hend⟩ := hlast
    exact ⟨s ++ (m ++ u), c, by simp only [List.append_assoc], hend⟩
  · simp only [List.mem_append, not_or]
    exact ⟨hs', hm, ht⟩

theorem isLine_nodeLine {node : Node} (h : node.id.shown.IsWord) : IsLine (nodeLine node) := by
  have hlabel := lineFeed_not_mem_escapeLabel node.label
  unfold nodeLine
  cases (Shape.ofValue? node.shape).getD .rect with
  | round =>
      simp only [outline, List.append_assoc]
      refine isLine_append h (by decide) ?_ ?_
      · simp [hlabel]
      · exact ⟨escapeLabel node.label ++ "\")".toList, ')', by simp, by decide, by decide⟩
  | diamond =>
      simp only [outline, List.append_assoc]
      refine isLine_append h (by decide) ?_ ?_
      · simp [hlabel]
      · exact ⟨escapeLabel node.label ++ ['"'], '}', by simp, by decide, by decide⟩
  | rect =>
      simp only [outline, List.append_assoc]
      refine isLine_append h (by decide) ?_ ?_
      · simp [hlabel]
      · exact ⟨escapeLabel node.label ++ ['"'], ']', by simp, by decide, by decide⟩

theorem isLine_edgeLine {edge : Edge} (hsource : edge.source.shown.IsWord)
    (htarget : edge.target.shown.IsWord) : IsLine (edgeLine edge) := by
  have hlabel := lineFeed_not_mem_escapeLabel edge.label
  have htarget' := lineFeed_not_mem_of_isWord htarget
  have hlast := exists_last_of_isWord htarget
  unfold edgeLine
  by_cases hempty : (escapeLabel edge.label).isEmpty = true
  · simp only [if_pos hempty, List.append_assoc]
    exact isLine_append hsource (by decide) htarget' hlast
  · have hmiddle : '\n' ∉ " -->|\"".toList ++ escapeLabel edge.label ++ "\"| ".toList := by
      simp [hlabel]
    have hline := isLine_append hsource hmiddle htarget' hlast
    simp only [if_neg hempty, List.append_assoc] at hline ⊢
    exact hline

/-! ## The lines of a diagram -/

theorem exists_direction (g : Graph) : ∃ d : Direction, g.directionName = d.name := by
  unfold Graph.directionName
  split
  · exact ⟨_, rfl⟩
  · exact ⟨.td, rfl⟩

def header (d : Direction) : Text := "flowchart ".toList ++ d.name

theorem header_eq_cons (d : Direction) : header d = 'f' :: ("lowchart ".toList ++ d.name) := by
  have hword : "flowchart ".toList = 'f' :: "lowchart ".toList := by decide
  exact congrArg (· ++ d.name) hword

theorem exists_name (d : Direction) :
    ∃ a b, d.name = [a, b] ∧ b ≠ '\n' ∧ isBlank b = false ∧ b ≠ '`' := by
  cases d with
  | td => exact ⟨'T', 'D', by decide⟩
  | tb => exact ⟨'T', 'B', by decide⟩
  | bt => exact ⟨'B', 'T', by decide⟩
  | lr => exact ⟨'L', 'R', by decide⟩
  | rl => exact ⟨'R', 'L', by decide⟩

theorem isLine_header (d : Direction) : IsLine (header d) := by
  obtain ⟨a, b, hname, _, hlast⟩ := exists_name d
  constructor
  · exact ⟨'f', "lowchart ".toList ++ d.name, header_eq_cons d, by decide⟩
  · refine ⟨"flowchart ".toList ++ [a], b, ?_, hlast⟩
    unfold header
    simp only [hname, List.append_assoc, List.singleton_append]
  · cases d <;> decide

theorem isHeader_header (d : Direction) : isHeader (header d) = true := by
  cases d <;> decide

/-- The lines below the header, as they are rendered but without their indentation. -/
def bodyLines (g : Graph) : List Text := g.nodes.map nodeLine ++ g.edges.map edgeLine

theorem isLine_of_mem_bodyLines {g : Graph} (hg : g.Legible) {line : Text}
    (h : line ∈ bodyLines g) : IsLine line := by
  rcases List.mem_append.mp h with h | h
  · obtain ⟨node, hnode, rfl⟩ := List.mem_map.mp h
    exact isLine_nodeLine (hg.ids node hnode)
  · obtain ⟨edge, hedge, rfl⟩ := List.mem_map.mp h
    obtain ⟨hsource, htarget⟩ := hg.ends edge hedge
    exact isLine_edgeLine hsource htarget

theorem bodyLines_ne_nil {g : Graph} (hg : g.Legible) : bodyLines g ≠ [] := by
  simp [bodyLines, hg.nodes_ne_nil]

theorem exists_mermaidLines {g : Graph} (hg : g.Legible) :
    ∃ d, g.mermaidLines = header d :: (bodyLines g).map indented := by
  obtain ⟨d, hd⟩ := exists_direction g
  have hne : ¬ g.nodes.isEmpty = true := by simpa using hg.nodes_ne_nil
  refine ⟨d, ?_⟩
  unfold Graph.mermaidLines
  simp only [if_neg hne, hd, bodyLines, List.map_append, List.map_map]
  rfl

/-- A header with indented lines behind it has nothing to strip, and no fences. -/
theorem tight_join {d : Direction} {lines : List Text} (hne : lines ≠ [])
    (h : ∀ line ∈ lines, IsLine line) :
    Tight (join ['\n'] (header d :: lines.map indented)) ∧
      stripFences (join ['\n'] (header d :: lines.map indented)) =
        join ['\n'] (header d :: lines.map indented) := by
  obtain ⟨rest, hrest⟩ := exists_join_cons ['\n'] (header d) (lines.map indented)
  obtain ⟨u, c, hlast, hblank, htick⟩ := (h _ (List.getLast_mem hne)).last
  -- The text ends like its last line, which comes behind all others.
  have hjoin : join ['\n'] (header d :: lines.map indented) =
      join ['\n'] (header d :: lines.dropLast.map indented) ++ ['\n'] ++ "    ".toList ++ u ++
        [c] := by
    have hlines : lines.map indented =
        lines.dropLast.map indented ++ [indented (lines.getLast hne)] := by
      calc lines.map indented
          = (lines.dropLast ++ [lines.getLast hne]).map indented := by
            rw [List.dropLast_concat_getLast]
        _ = lines.dropLast.map indented ++ [indented (lines.getLast hne)] := List.map_append
    have hconcat := join_concat ['\n'] (List.cons_ne_nil (header d) (lines.dropLast.map indented))
      (indented (lines.getLast hne))
    rw [hlines, ← List.cons_append]
    refine hconcat.trans ?_
    unfold indented
    simp only [hlast, List.append_assoc]
  have hstart := hrest.trans (congrArg (· ++ rest) (header_eq_cons d))
  have htight : Tight (join ['\n'] (header d :: lines.map indented)) :=
    ⟨⟨'f', _, hstart, by decide⟩, _, c, hjoin, hblank⟩
  refine ⟨htight, stripFences_of_tight htight ?_ ?_⟩
  · rw [hstart]
    intro hhead
    exact absurd (Option.some.inj hhead) (by decide)
  · rw [hjoin, List.getLast?_concat]
    exact fun hend => htick (Option.some.inj hend)

/-- What is read from the text of a graph are its header and its lines. -/
theorem contentLines_mermaid {g : Graph} (hg : g.Legible) (fenced : Bool) :
    ∃ d, contentLines (g.mermaid fenced) = header d :: bodyLines g := by
  obtain ⟨d, hd⟩ := exists_mermaidLines hg
  have hbody : ∀ line ∈ bodyLines g, IsLine line := fun line => isLine_of_mem_bodyLines hg
  obtain ⟨htight, hfences⟩ := @tight_join d (bodyLines g) (bodyLines_ne_nil hg) hbody
  have hstrip : stripFences (g.mermaid fenced) =
      join ['\n'] (header d :: (bodyLines g).map indented) := by
    rw [Graph.mermaid, hd]
    cases fenced with
    | false => exact hfences
    | true => exact (stripFences_fence _).trans htight.strip
  have hpieces : pieces '\n' (join ['\n'] (header d :: (bodyLines g).map indented)) =
      header d :: (bodyLines g).map indented := by
    refine pieces_join (List.cons_ne_nil _ _) ?_
    intro line hline
    rcases List.mem_cons.mp hline with rfl | hline
    · exact (isLine_header d).noLineFeed
    · obtain ⟨bare, hbare, rfl⟩ := List.mem_map.mp hline
      simp [indented, (hbody bare hbare).noLineFeed]
  -- Stripping a line takes its indentation away and nothing else.
  have hstripped :
      (header d :: (bodyLines g).map indented).map strip = header d :: bodyLines g := by
    rw [List.map_cons, (isLine_header d).tight.strip, List.map_map]
    refine congrArg (header d :: ·) ?_
    calc (bodyLines g).map (strip ∘ indented)
        = (bodyLines g).map id :=
          List.map_congr_left fun line hline => (hbody line hline).strip_indented
      _ = bodyLines g := List.map_id _
  refine ⟨d, ?_⟩
  rw [contentLines, hstrip, hpieces, hstripped, List.filter_eq_self]
  intro line hline
  rcases List.mem_cons.mp hline with rfl | hline
  · exact (isLine_header d).isContent
  · exact (hbody line hline).isContent

/-- What is read from the text of a graph are the declarations of its nodes and its edges. -/
theorem elements_mermaid {g : Graph} (hg : g.Legible) (fenced : Bool) :
    elements (g.mermaid fenced) =
      (g.nodes.map fun node => Element.declaration node.id.shown) ++
        g.edges.map fun edge => Element.edge edge.source.shown edge.target.shown := by
  obtain ⟨d, hd⟩ := contentLines_mermaid hg fenced
  have hnodes : g.nodes.map (element ∘ nodeLine) =
      g.nodes.map fun node => Element.declaration node.id.shown :=
    List.map_congr_left fun node hnode => element_nodeLine (hg.ids node hnode)
  have hedges : g.edges.map (element ∘ edgeLine) =
      g.edges.map fun edge => Element.edge edge.source.shown edge.target.shown := by
    refine List.map_congr_left fun edge hedge => ?_
    obtain ⟨hsource, htarget⟩ := hg.ends edge hedge
    exact element_edgeLine hsource htarget (hg.labels edge hedge)
  rw [elements, hd, List.tail_cons, bodyLines, List.map_append, List.map_map, List.map_map, hnodes,
    hedges]

end Mermaid

end Flowchart
