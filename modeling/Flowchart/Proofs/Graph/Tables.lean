import Flowchart.Graph.Table
import Flowchart.Proofs.Text.Cuts
import Mathlib.Data.List.TakeWhile

/-!
# Tables are read back

The tables of a graph can be read without knowing what was written: the rows of a table stand
between its separator and the next empty line (`rowsBelow`), a row is cut at every bar without a
backslash before it (`barPieces`), and a cell is what is left without the blanks around it and the
backslashes before its bars (`readCell?`). Main statement: what is read are the nodes and the edges
of the graph (`tables_readBack`).

A bar inside a cell always has a backslash before it, and a bar between cells always a space, even
where the cell before it ends in a backslash. So the cuts lie between the cells and nowhere else
(`barPieces_cell`), whatever backslashes the cells hold themselves.
-/

set_option autoImplicit false

namespace Flowchart

open Text

/-! ## Reading tables -/

/-- The lines below the first line that is `separator`, up to an empty one. -/
def rowsBelow (separator : Text) (lines : List Text) : List Text :=
  ((lines.dropWhile (· ≠ separator)).drop 1).takeWhile (· ≠ [])

/-- The pieces of a text between its bars. A bar with a backslash directly before it makes no cut;
`escaped` says whether there is one before the text. -/
def barPieces (escaped : Bool) : Text → List Text
  | [] => [[]]
  | c :: t =>
      if c = '|' ∧ escaped = false then [] :: barPieces false t
      else consHead c (barPieces (c == '\\') t)

/-- The text without the backslashes that stand directly before a bar. -/
def plainBars : Text → Text
  | [] => []
  | '\\' :: '|' :: t => '|' :: plainBars t
  | c :: t => c :: plainBars t

/-- What a cell holds between one space on each side. -/
def readCell? (cell : Text) : Option Value := do
  let t ← after? [' '] cell
  let t ← before? [' '] t
  return .text (plainBars t)

/-- What the three cells of a row hold. Its outer bars are the ends of the row. -/
def readRow? (row : Text) : Option (Value × Value × Value) :=
  match barPieces false row with
  | [[], a, b, c, []] => do return (← readCell? a, ← readCell? b, ← readCell? c)
  | _ => none

def nodeSeparator : Text := "|----|-------|-------|".toList

def edgeSeparator : Text := "|--------|--------|-------|".toList

/-! ## Graphs on which lines can be told apart -/

/-- A text that is written on one line. -/
def Value.IsOneLine (v : Value) : Prop := v = .text v.shown ∧ '\n' ∉ v.shown

instance (v : Value) : Decidable v.IsOneLine :=
  inferInstanceAs (Decidable (v = .text v.shown ∧ '\n' ∉ v.shown))

/-- A graph of texts, none of which holds a line feed. -/
structure Graph.IsOneLine (g : Graph) : Prop where
  nodes : ∀ node ∈ g.nodes, node.id.IsOneLine ∧ node.label.IsOneLine ∧ node.shape.IsOneLine
  edges : ∀ edge ∈ g.edges, edge.source.IsOneLine ∧ edge.target.IsOneLine ∧ edge.label.IsOneLine
  direction : g.direction.IsOneLine

/-! ## Cells -/

/-- The text with a backslash before each bar. -/
def escapeBars (t : Text) : Text := replaceChar '|' ['\\', '|'] t

theorem cellText_text (t : Text) : cellText (.text t) = escapeBars t := by
  cases t with
  | nil => rfl
  | cons c t => rfl

theorem escapeBars_bar (t : Text) : escapeBars ('|' :: t) = '\\' :: '|' :: escapeBars t := rfl

theorem escapeBars_of_ne {c : Char} (h : c ≠ '|') (t : Text) :
    escapeBars (c :: t) = c :: escapeBars t := by
  rw [escapeBars, replaceChar, List.flatMap_cons, if_neg h]
  rfl

theorem head?_escapeBars (t : Text) : (escapeBars t).head? ≠ some '|' := by
  cases t with
  | nil => exact nofun
  | cons c t =>
      by_cases h : c = '|'
      · rw [h, escapeBars_bar]
        exact fun hhead => absurd (Option.some.inj hhead) (by decide)
      · rw [escapeBars_of_ne h]
        exact fun hhead => h (Option.some.inj hhead)

theorem plainBars_of_ne {c : Char} {t : Text} (h : c = '\\' → t.head? ≠ some '|') :
    plainBars (c :: t) = c :: plainBars t := by
  rw [plainBars]
  rintro u rfl rfl
  exact h rfl rfl

/-- The backslashes that were put before the bars are taken away again, and no others. -/
theorem plainBars_escapeBars (t : Text) : plainBars (escapeBars t) = t := by
  induction t with
  | nil => rfl
  | cons c t ih =>
      by_cases h : c = '|'
      · rw [h, escapeBars_bar, plainBars, ih]
      · rw [escapeBars_of_ne h, plainBars_of_ne fun _ => head?_escapeBars t, ih]

theorem mem_escapeBars {c : Char} {t : Text} (h : c ∈ escapeBars t) : c ∈ t ∨ c = '\\' := by
  obtain ⟨d, hd, hc⟩ := List.mem_flatMap.mp h
  split at hc
  · rename_i hbar
    rcases List.mem_cons.mp hc with rfl | hc
    · exact Or.inr rfl
    · rw [List.mem_singleton.mp hc, ← hbar]
      exact Or.inl hd
  · rw [List.mem_singleton.mp hc]
    exact Or.inl hd

theorem barPieces_bar (t : Text) : barPieces false ('|' :: t) = [] :: barPieces false t := by
  rw [barPieces, if_pos ⟨rfl, rfl⟩]

theorem barPieces_of_ne {c : Char} (h : c ≠ '|') (escaped : Bool) (t : Text) :
    barPieces escaped (c :: t) = consHead c (barPieces (c == '\\') t) := by
  rw [barPieces, if_neg fun hbar => h hbar.1]

/-- A cell ends at the bar behind it and not before.

The induction is on the cell, with either answer to what stands before it: a backslash there changes
nothing, since the escaped cell begins with no bar. -/
theorem barPieces_cell (cell : Text) (escaped : Bool) (rest : Text) :
    barPieces escaped (escapeBars cell ++ ' ' :: '|' :: rest) =
      (escapeBars cell ++ [' ']) :: barPieces false rest := by
  induction cell generalizing escaped with
  | nil =>
      show barPieces escaped (' ' :: '|' :: rest) = [' '] :: barPieces false rest
      have hspace : (' ' == '\\') = false := by decide
      rw [barPieces_of_ne (by decide), hspace, barPieces_bar, consHead]
  | cons c cell ih =>
      by_cases h : c = '|'
      · have hback : ('\\' == '\\') = true := by decide
        have hbar : ∀ t, barPieces true ('|' :: t) = consHead '|' (barPieces false t) := by
          intro t
          rw [barPieces, if_neg fun hcut => Bool.noConfusion hcut.2]
          rfl
        rw [h, escapeBars_bar, List.cons_append, List.cons_append, barPieces_of_ne (by decide),
          hback, hbar, ih]
        rfl
      · rw [escapeBars_of_ne h, List.cons_append, barPieces_of_ne h, ih]
        rfl

/-! ## Rows -/

variable {a b c : Value}

/-- The cells of a row, each with the space before it and the bar behind it. -/
theorem tableRow_text (a b c : Text) :
    tableRow (.text a) (.text b) (.text c) =
      '|' :: (escapeBars (' ' :: a) ++ ' ' :: '|' :: (escapeBars (' ' :: b) ++
        ' ' :: '|' :: (escapeBars (' ' :: c) ++ ' ' :: '|' :: []))) := by
  have hstart : "| ".toList = ['|', ' '] := rfl
  have hmiddle : " | ".toList = [' ', '|', ' '] := rfl
  have hend : " |".toList = [' ', '|'] := rfl
  have hspace : ' ' ≠ '|' := by decide
  simp only [tableRow, cellText_text, hstart, hmiddle, hend, escapeBars_of_ne hspace,
    List.cons_append, List.nil_append, List.append_assoc]

theorem readCell?_escapeBars (t : Text) :
    readCell? (escapeBars (' ' :: t) ++ [' ']) = some (.text t) := by
  have hspace : ' ' ≠ '|' := by decide
  have hafter : after? [' '] (' ' :: (escapeBars t ++ [' '])) = some (escapeBars t ++ [' ']) :=
    after?_append [' '] _
  rw [escapeBars_of_ne hspace, List.cons_append, readCell?, hafter]
  simp only [Option.bind_eq_bind, Option.bind_some, before?_append, plainBars_escapeBars]
  rfl

/-- A row is read as what it was written from. -/
theorem readRow?_tableRow (ha : a.IsOneLine) (hb : b.IsOneLine) (hc : c.IsOneLine) :
    readRow? (tableRow a b c) = some (a, b, c) := by
  have hrow : tableRow a b c = tableRow (.text a.shown) (.text b.shown) (.text c.shown) := by
    rw [← ha.1, ← hb.1, ← hc.1]
  have hpieces : barPieces false (tableRow a b c) =
      [[], escapeBars (' ' :: a.shown) ++ [' '], escapeBars (' ' :: b.shown) ++ [' '],
        escapeBars (' ' :: c.shown) ++ [' '], []] := by
    rw [hrow, tableRow_text, barPieces_bar, barPieces_cell, barPieces_cell, barPieces_cell]
    rfl
  rw [readRow?, hpieces]
  simp only [Option.bind_eq_bind, Option.bind_some, readCell?_escapeBars]
  rw [← ha.1, ← hb.1, ← hc.1]
  rfl

theorem lineFeed_not_mem_cellText {v : Value} (h : v.IsOneLine) : '\n' ∉ cellText v := by
  rw [h.1, cellText_text]
  intro hmem
  rcases mem_escapeBars hmem with hmem | hmem
  · exact h.2 hmem
  · exact absurd hmem (by decide)

/-- A line that is a row of texts without line feeds. -/
def IsRow (line : Text) : Prop :=
  ∃ a b c : Value, (a.IsOneLine ∧ b.IsOneLine ∧ c.IsOneLine) ∧ line = tableRow a b c

theorem IsRow.lineFeed_not_mem {line : Text} (h : IsRow line) : '\n' ∉ line := by
  obtain ⟨a, b, c, ⟨ha, hb, hc⟩, rfl⟩ := h
  simp [tableRow, lineFeed_not_mem_cellText ha, lineFeed_not_mem_cellText hb,
    lineFeed_not_mem_cellText hc]

/-- A row begins with a bar and a space, so it is neither empty nor a separator. -/
theorem IsRow.ne {line other : Text} (h : IsRow line) (hother : other.take 2 ≠ ['|', ' ']) :
    line ≠ other := by
  rintro rfl
  obtain ⟨a, b, c, -, rfl⟩ := h
  refine hother ?_
  have hstart : "| ".toList = ['|', ' '] := rfl
  simp only [tableRow, hstart, List.append_assoc, List.cons_append, List.take_succ_cons,
    List.take_zero]

/-! ## Tables -/

theorem rowsBelow_of_not_mem {separator : Text} {lines : List Text} (h : separator ∉ lines) :
    rowsBelow separator lines = [] := by
  have hnone : lines.dropWhile (fun line => line ≠ separator) = [] := by
    rw [List.dropWhile_eq_nil_iff]
    rintro line hline
    exact decide_eq_true fun heq => h (heq ▸ hline)
  rw [rowsBelow, hnone]
  rfl

/-- The rows of a table are found below the first line that is its separator. -/
theorem rowsBelow_append {separator : Text} {before rows : List Text} (hbefore : separator ∉ before)
    (hrows : [] ∉ rows) (more : List Text) :
    rowsBelow separator (before ++ separator :: (rows ++ [] :: more)) = rows := by
  have hskip : ∀ line ∈ before, decide (line ≠ separator) = true :=
    fun line hline => decide_eq_true fun heq => hbefore (heq ▸ hline)
  have hkeep : ∀ row ∈ rows, decide (row ≠ []) = true :=
    fun row hrow => decide_eq_true fun heq => hrows (heq ▸ hrow)
  rw [rowsBelow, List.dropWhile_append_of_pos hskip, List.dropWhile_cons_of_neg (by simp),
    List.drop_one, List.tail_cons, List.takeWhile_append_of_pos hkeep,
    List.takeWhile_cons_of_neg (by simp), List.append_nil]

namespace Graph

/-- A table, or nothing when there are no rows. -/
def tableOf (title head separator : Text) (rows : List Text) : List Text :=
  if rows.isEmpty then [] else tableLines title head separator rows

variable {title head separator : Text} {rows : List Text}

theorem mem_tableOf {line : Text} (h : line ∈ tableOf title head separator rows) :
    line ∈ [title, [], head, separator] ∨ line ∈ rows := by
  unfold tableOf at h
  split at h
  · exact absurd h List.not_mem_nil
  · rw [tableLines, List.mem_append, List.mem_append] at h
    rcases h with (h | h) | h
    · exact Or.inl h
    · exact Or.inr h
    · rw [List.mem_singleton.mp h]
      exact Or.inl (by simp)

theorem lineFeed_not_mem_tableOf (hopening : ∀ line ∈ [title, [], head, separator], '\n' ∉ line)
    (hrows : ∀ row ∈ rows, IsRow row) :
    ∀ line ∈ tableOf title head separator rows, '\n' ∉ line := by
  intro line hline
  rcases mem_tableOf hline with hline | hline
  · exact hopening line hline
  · exact (hrows line hline).lineFeed_not_mem

theorem not_mem_tableOf {other : Text} (hopening : other ∉ [title, [], head, separator])
    (hrows : ∀ row ∈ rows, IsRow row) (hother : other.take 2 ≠ ['|', ' ']) :
    other ∉ tableOf title head separator rows := by
  intro hmem
  rcases mem_tableOf hmem with hmem | hmem
  · exact hopening hmem
  · exact (hrows other hmem).ne hother rfl

/-- The rows of a table are found between other lines, when its separator is not among these. -/
theorem rowsBelow_tableOf {before more : List Text} (hopening : separator ∉ [title, [], head])
    (hbefore : separator ∉ before) (hmore : separator ∉ more) (hrows : ∀ row ∈ rows, IsRow row) :
    rowsBelow separator (before ++ (tableOf title head separator rows ++ more)) = rows := by
  cases rows with
  | nil =>
      refine rowsBelow_of_not_mem ?_
      rw [tableOf, if_pos List.isEmpty_nil, List.nil_append, List.mem_append, not_or]
      exact ⟨hbefore, hmore⟩
  | cons row rows =>
      have hlines : before ++ (tableOf title head separator (row :: rows) ++ more) =
          (before ++ [title, [], head]) ++ separator :: (row :: rows ++ [] :: more) := by
        rw [tableOf, if_neg (by simp), tableLines]
        simp only [List.append_assoc, List.cons_append, List.nil_append]
      rw [hlines]
      refine rowsBelow_append ?_ ?_ more
      · rw [List.mem_append, not_or]
        exact ⟨hbefore, hopening⟩
      · exact fun hmem => (hrows [] hmem).ne (by decide) rfl

/-! ## The tables of a graph -/

section Tables

variable (g : Graph)

def nodeRows : List Text := g.nodes.map fun node => tableRow node.id node.label node.shape

def edgeRows : List Text := g.edges.map fun edge => tableRow edge.source edge.target edge.label

def nodeTable : List Text :=
  tableOf "##### Nodes".toList "| ID | Label | Shape |".toList nodeSeparator g.nodeRows

def edgeTable : List Text :=
  tableOf "##### Edges".toList "| Source | Target | Label |".toList edgeSeparator g.edgeRows

end Tables

variable {g : Graph} {name : Text}

theorem isRow_of_mem_nodeRows (hg : g.IsOneLine) : ∀ row ∈ g.nodeRows, IsRow row := by
  intro row hrow
  obtain ⟨node, hnode, rfl⟩ := List.mem_map.mp hrow
  exact ⟨_, _, _, hg.nodes node hnode, rfl⟩

theorem isRow_of_mem_edgeRows (hg : g.IsOneLine) : ∀ row ∈ g.edgeRows, IsRow row := by
  intro row hrow
  obtain ⟨edge, hedge, rfl⟩ := List.mem_map.mp hrow
  exact ⟨_, _, _, hg.edges edge hedge, rfl⟩

/-- Above the tables there are lines that begin with no bar. -/
theorem exists_tableLinesOf (hg : g.IsOneLine) (hname : '\n' ∉ name) :
    ∃ opening : List Text, g.tableLinesOf name = opening ++ (g.nodeTable ++ g.edgeTable) ∧
      opening ≠ [] ∧ ∀ line ∈ opening, line.head? ≠ some '|' ∧ '\n' ∉ line := by
  have hnodes : g.nodeRows.isEmpty = g.nodes.isEmpty := List.isEmpty_map
  have hedges : g.edgeRows.isEmpty = g.edges.isEmpty := List.isEmpty_map
  have hdecimal : ∀ n, '\n' ∉ decimal n := by
    intro n hmem
    exact absurd (isDigit_of_mem_decimal hmem) (by decide)
  have hopening : ∃ heading sizes, (g.tableLinesOf name).take 4 = [heading, [], sizes, []] ∧
      (heading.head? = some '#' ∧ '\n' ∉ heading) ∧ sizes.head? = some '*' ∧ '\n' ∉ sizes := by
    refine ⟨_, _, rfl, ⟨?_, ?_⟩, rfl, ?_⟩
    · split <;> rfl
    · split
      · decide
      · simp [hname]
    · simp [hg.direction.2, hdecimal]
  refine ⟨(g.tableLinesOf name).take 4, ?_, ?_⟩
  · unfold tableLinesOf nodeTable edgeTable tableOf
    rw [hnodes, hedges, ← List.append_assoc]
    rfl
  · obtain ⟨heading, sizes, htake, hheading, hsizes⟩ := hopening
    rw [htake]
    refine ⟨List.cons_ne_nil _ _, ?_⟩
    simp [hheading, hsizes]

/-- The lines of the tables are found again in their text. -/
theorem pieces_tables (hg : g.IsOneLine) (hname : '\n' ∉ name) :
    pieces '\n' (g.tables name) = g.tableLinesOf name := by
  obtain ⟨opening, hlines, hne, hopening⟩ := exists_tableLinesOf hg hname
  rw [tables, hlines]
  refine pieces_join (List.append_ne_nil_of_left_ne_nil hne _) ?_
  intro line hline
  rw [List.mem_append, List.mem_append] at hline
  rcases hline with hline | hline | hline
  · exact (hopening line hline).2
  · exact lineFeed_not_mem_tableOf (by decide) (isRow_of_mem_nodeRows hg) line hline
  · exact lineFeed_not_mem_tableOf (by decide) (isRow_of_mem_edgeRows hg) line hline

theorem rowsBelow_nodeSeparator (hg : g.IsOneLine) (hname : '\n' ∉ name) :
    rowsBelow nodeSeparator (pieces '\n' (g.tables name)) = g.nodeRows := by
  obtain ⟨opening, hlines, -, hopening⟩ := exists_tableLinesOf hg hname
  have habove : nodeSeparator ∉ opening := fun hmem => (hopening _ hmem).1 rfl
  have hbelow : nodeSeparator ∉ g.edgeTable :=
    not_mem_tableOf (by decide) (isRow_of_mem_edgeRows hg) (by decide)
  rw [pieces_tables hg hname, hlines]
  exact rowsBelow_tableOf (by decide) habove hbelow (isRow_of_mem_nodeRows hg)

theorem rowsBelow_edgeSeparator (hg : g.IsOneLine) (hname : '\n' ∉ name) :
    rowsBelow edgeSeparator (pieces '\n' (g.tables name)) = g.edgeRows := by
  obtain ⟨opening, hlines, -, hopening⟩ := exists_tableLinesOf hg hname
  have habove : edgeSeparator ∉ opening ++ g.nodeTable := by
    rw [List.mem_append, not_or]
    refine ⟨fun hmem => (hopening _ hmem).1 rfl, ?_⟩
    exact not_mem_tableOf (by decide) (isRow_of_mem_nodeRows hg) (by decide)
  have hrows : rowsBelow edgeSeparator (opening ++ g.nodeTable ++ (g.edgeTable ++ [])) =
      g.edgeRows :=
    rowsBelow_tableOf (by decide) habove List.not_mem_nil (isRow_of_mem_edgeRows hg)
  rw [pieces_tables hg hname, hlines, ← List.append_assoc]
  rwa [List.append_nil] at hrows

end Graph

/-- From the tables of a graph its nodes and edges are read back, each from a row of its own and in
order. -/
theorem tables_readBack {g : Graph} {name : Text} (hg : g.IsOneLine) (hname : '\n' ∉ name) :
    (rowsBelow nodeSeparator (pieces '\n' (g.tables name))).map readRow? =
        g.nodes.map (fun node => some (node.id, node.label, node.shape)) ∧
      (rowsBelow edgeSeparator (pieces '\n' (g.tables name))).map readRow? =
        g.edges.map (fun edge => some (edge.source, edge.target, edge.label)) := by
  rw [Graph.rowsBelow_nodeSeparator hg hname, Graph.rowsBelow_edgeSeparator hg hname,
    Graph.nodeRows, Graph.edgeRows, List.map_map, List.map_map]
  constructor
  · refine List.map_congr_left fun node hnode => ?_
    obtain ⟨hid, hlabel, hshape⟩ := hg.nodes node hnode
    exact readRow?_tableRow hid hlabel hshape
  · refine List.map_congr_left fun edge hedge => ?_
    obtain ⟨hsource, htarget, hlabel⟩ := hg.edges edge hedge
    exact readRow?_tableRow hsource htarget hlabel

/-- A graph with bars, backslashes, blanks and marks of tables in its texts. -/
def barredGraph : Graph where
  nodes := [⟨.text "a|b".toList, .text "x \\| y \\".toList, .text "|----|-------|-------|".toList⟩,
    ⟨.text [], .text " ".toList, .text "\\\\|".toList⟩]
  edges := [⟨.text "a|b".toList, .text "||".toList, .text "| ID |".toList⟩]
  direction := .text "|".toList

theorem tables_readBack_barred :
    barredGraph.IsOneLine ∧ '\n' ∉ "| a \\|".toList ∧
      (rowsBelow nodeSeparator (pieces '\n' (barredGraph.tables "| a \\|".toList))).map readRow? =
        [some (.text "a|b".toList, .text "x \\| y \\".toList,
            .text "|----|-------|-------|".toList),
          some (.text [], .text " ".toList, .text "\\\\|".toList)] ∧
      (rowsBelow edgeSeparator (pieces '\n' (barredGraph.tables "| a \\|".toList))).map readRow? =
        [some (.text "a|b".toList, .text "||".toList, .text "| ID |".toList)] := by
  have hgraph : barredGraph.IsOneLine := ⟨by decide, by decide, by decide⟩
  have hname : '\n' ∉ "| a \\|".toList := by decide
  exact ⟨hgraph, hname, tables_readBack hgraph hname⟩

end Flowchart
