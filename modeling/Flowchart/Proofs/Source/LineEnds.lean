import Flowchart.Mermaid.Render
import Flowchart.Proofs.Text.Lines

/-!
# Line ends

Which of the three line ends stands between two lines makes no difference, and neither do blanks at
the ends of a line. The diagram of a source depends on its stripped lines alone (`ofSource_congr`).
Main statement: `diagram_of_lines`.

A source with nothing but blanks is told apart by its whole text and not by its lines, so for the
second part the two tests have to agree (`isAllBlank_iff_sourceLines`). They do because line ends
are blanks.
-/

set_option autoImplicit false

namespace Flowchart

open Text Source

theorem Source.isAllBlank_iff_sourceLines (t : Text) :
    isAllBlank t = true ↔ ∀ line ∈ sourceLines t, line = [] := by
  rw [isAllBlank_iff_lines, sourceLines, List.forall_mem_map]
  simp only [strip_eq_nil_iff]

/-- The diagram of a source depends on its stripped lines alone. -/
theorem Mermaid.ofSource_congr {s t : Text} (h : sourceLines s = sourceLines t) (limit : Int)
    (direction : Text) (fenced : Bool) :
    ofSource limit direction fenced s = ofSource limit direction fenced t := by
  have hblank : isAllBlank s = isAllBlank t := by
    rw [Bool.eq_iff_iff, isAllBlank_iff_sourceLines, isAllBlank_iff_sourceLines, h]
  have hgraph : Graph.ofSource limit direction s = Graph.ofSource limit direction t := by
    rw [Graph.ofSource, Graph.ofSource, statementsOf, statementsOf, h]
  rw [ofSource, ofSource, hblank, hgraph]

/-- Lines are found again whichever line ends join them, up to the blanks at their ends, and the
diagram of a source depends on nothing else. -/
theorem diagram_of_lines :
    (∀ (first : Text) (more : List (LineEnd × Text)),
      (∀ line ∈ first :: more.map Prod.snd, line.Unbroken) → more.IsChain LineEnd.Apart →
        sourceLines (broken first more) = (first :: more.map Prod.snd).map strip) ∧
      ∀ s t : Text, sourceLines s = sourceLines t →
        ∀ (limit : Int) (direction : Text) (fenced : Bool),
          Mermaid.ofSource limit direction fenced s =
            Mermaid.ofSource limit direction fenced t := by
  constructor
  · intro first more hlines hends
    rw [sourceLines, lines_broken hlines hends]
  · intro s t h limit direction fenced
    exact Mermaid.ofSource_congr h limit direction fenced

/-- Lines with each line end between them, two of them empty: one between carriage returns, and one
behind a carriage return with its line feed. -/
theorem diagram_of_lines_mixed :
    sourceLines "if (a) \r\r\tb();\r\n\n else\u2003\r\nc();".toList =
        ["if (a)".toList, [], "b();".toList, [], "else".toList, "c();".toList] ∧
      Mermaid.ofSource 25 "LR".toList true "if (a) \r\r\tb();\r\n\n else\u2003\r\nc();".toList =
        Mermaid.ofSource 25 "LR".toList true "if (a)\n\nb();\n\nelse\nc();".toList := by
  have hmixed : sourceLines "if (a) \r\r\tb();\r\n\n else\u2003\r\nc();".toList =
      ["if (a)".toList, [], "b();".toList, [], "else".toList, "c();".toList] :=
    (diagram_of_lines.1 "if (a) ".toList
      [(.carriageReturn, []), (.carriageReturn, "\tb();".toList), (.both, []),
        (.lineFeed, " else\u2003".toList), (.both, "c();".toList)] (by decide) (by decide)).trans
      (by decide)
  have hplain : sourceLines "if (a)\n\nb();\n\nelse\nc();".toList =
      ["if (a)".toList, [], "b();".toList, [], "else".toList, "c();".toList] := by decide +kernel
  exact ⟨hmixed, diagram_of_lines.2 _ _ (hmixed.trans hplain.symm) 25 "LR".toList true⟩

end Flowchart
