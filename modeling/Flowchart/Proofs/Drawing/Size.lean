import Flowchart.Proofs.Drawing.Program
import Flowchart.Proofs.Source.Substance

/-!
# The size of a drawing

A graph is no larger than the source that it is drawn from: every edge is paid for by a character
of the source that is no blank, and every node but the first by an edge.

No character pays twice, since reading hands it out once, at every depth (`Source.sublist_read`): a
statement pays with the word that it opens with for what it adds itself, and with the lines of its
bodies for what they add (`Part.linkCount_statement`). Main statement: `Graph.length_ofSource`.
-/

set_option autoImplicit false

open scoped List

namespace Flowchart

/-! ## Ink -/

namespace Text

/-- How many characters of the text are no blanks. -/
def ink (t : Text) : Nat := t.countP (!isBlank ·)

theorem ink_append (t u : Text) : ink (t ++ u) = ink t + ink u := List.countP_append

theorem ink_le_of_sublist {t u : Text} (h : t <+ u) : ink t ≤ ink u := h.countP_le

theorem ink_pos {t : Text} (h : isAllBlank t = false) : 0 < ink t := by
  obtain ⟨c, hc, hblank⟩ := List.all_eq_false.mp h
  exact List.countP_pos_iff.mpr ⟨c, hc, by simpa using hblank⟩

end Text

open Text

/-! ## Links -/

namespace Part

/-- How many edges a part adds. -/
def linkCount : Part → Nat
  | nothing => 0
  | single _ _ => 1
  | andThen first second => first.linkCount + second.linkCount
  | fork _ yes no => yes.linkCount + no.linkCount + 3
  | repeated _ body => body.linkCount + 2

theorem length_links_eq (p : Part) (given : Nat) (cursor : Cursor Vertex) :
    (p.links given cursor).length = p.linkCount := by
  induction p generalizing given cursor with
  | nothing => rfl
  | single role label => rfl
  | andThen first second ihFirst ihSecond =>
      rw [links_andThen, List.length_append, ihFirst, ihSecond, linkCount]
  | fork label yes no ihYes ihNo =>
      rw [links_fork, List.length_cons, List.length_append, List.length_append, ihYes, ihNo,
        linkCount]
      simp only [List.length_cons, List.length_nil]
      omega
  | repeated label body ihBody =>
      rw [links_repeated, List.length_cons, List.length_append, ihBody, linkCount]
      simp only [List.length_cons, List.length_nil]

/-- A part adds an edge to each of its nodes. -/
theorem size_le_linkCount (p : Part) : p.size ≤ p.linkCount := by
  induction p with
  | nothing => exact Nat.le_refl 0
  | single role label => exact Nat.le_refl 1
  | andThen first second ihFirst ihSecond => exact Nat.add_le_add ihFirst ihSecond
  | fork label yes no ihYes ihNo =>
      simp only [size, linkCount]
      omega
  | repeated label body ihBody =>
      simp only [size, linkCount]
      omega

/-! ## What pays for a link -/

theorem linkCount_sequence {α : Type} (part : α → Part) (text : α → Text) (items : List α)
    (h : ∀ a ∈ items, (part a).linkCount ≤ ink (text a)) :
    (sequence (items.map part)).linkCount ≤ ink (items.flatMap text) := by
  induction items with
  | nil => exact Nat.zero_le _
  | cons a items ih =>
      have hfirst := h a List.mem_cons_self
      have hmore := ih fun b hb => h b (List.mem_cons_of_mem a hb)
      rw [List.flatMap_cons, ink_append]
      exact Nat.add_le_add hfirst hmore

theorem linkCount_plain (limit : Int) (t : Text) : (plain limit t).linkCount ≤ ink t := by
  unfold plain
  split
  · exact Nat.zero_le _
  · rename_i hblank
    exact ink_pos (Bool.eq_false_iff.mpr hblank)

section Statements

variable {body : List Text → Part} (hbody : ∀ ls, (body ls).linkCount ≤ ink ls.flatten)

include hbody

/-- The header of each arm pays for the three edges around its diamond and its join. -/
theorem linkCount_chain (arms : List Arm) (elseBody : List Text) :
    (chain body arms elseBody).linkCount ≤
      ink (arms.flatMap Arm.substance ++ elseBody.flatten) := by
  induction arms with
  | nil => exact hbody elseBody
  | cons a more ih =>
      have hyes := hbody a.body
      have hheader : ink "if(".toList = 3 := by decide
      rw [List.flatMap_cons, List.append_assoc, ink_append, Arm.substance, ink_append, ink_append,
        hheader]
      simp only [chain, linkCount]
      omega

/-- What a statement adds is paid for by its own text. -/
theorem linkCount_statement (limit : Int) {line : Text} {below : List Text} {s : Statement}
    (hs : s ∈ (Source.read line below).1) :
    (statement limit body s).linkCount ≤ ink s.substance := by
  cases s with
  | function name line =>
      have hword : 0 < ink "function".toList := ink_pos (by decide)
      show 1 ≤ ink ("function".toList ++ name)
      rw [ink_append]
      omega
  | conditional first more elseBody line => exact linkCount_chain hbody (first :: more) elseBody
  | loop keyword condition ls line =>
      -- The keyword pays for the edge to the diamond, and the parenthesis for the way back.
      have hkeyword := Source.opensGroup_of_loopKeyword? (Source.loopKeyword?_of_read hs)
      have hword : 0 < ink keyword := ink_pos hkeyword.2.1
      have hopen : ink ['('] = 1 := by decide
      have hlines := hbody ls
      show (body ls).linkCount + 2 ≤ ink (keyword ++ (['('] ++ (condition ++ ls.flatten)))
      rw [ink_append, ink_append, ink_append, hopen]
      omega
  | «variable» content line => exact linkCount_plain limit content
  | result value line =>
      have hword : 0 < ink "return".toList := ink_pos (by decide)
      show 1 ≤ ink ("return".toList ++ _)
      rw [ink_append]
      omega
  | plain content line => exact linkCount_plain limit content

theorem linkCount_statements (limit : Int) (ls : List Text) :
    (sequence ((Source.statements ls).map (statement limit body))).linkCount ≤ ink ls.flatten := by
  have hsum := linkCount_sequence (statement limit body) Statement.substance (Source.statements ls)
    fun s hs => by
      obtain ⟨line, below, hread⟩ := Source.exists_read_of_mem_statements hs
      exact linkCount_statement hbody limit hread
  exact hsum.trans (ink_le_of_sublist (Source.sublist_statements ls))

end Statements

/-- The lines of a body pay for what the body adds, however deep they are read. -/
theorem linkCount_lines (limit : Int) (room : Nat) (ls : List Text) :
    (lines limit room ls).linkCount ≤ ink ls.flatten := by
  induction room generalizing ls with
  | zero =>
      have hsum := linkCount_sequence (plain limit) id ls fun t _ => linkCount_plain limit t
      rwa [List.flatMap_id] at hsum
  | succ room ih => exact linkCount_statements ih limit ls

end Part

/-! ## The graph of a source -/

/-- A graph has at most one node more than its source has characters that are no blanks, and at
most as many edges. -/
theorem Graph.length_ofSource (limit : Int) (direction source : Text) :
    (ofSource limit direction source).nodes.length ≤ 1 + ink source ∧
      (ofSource limit direction source).edges.length ≤ ink source := by
  have hpaid : (Part.block limit (Source.statementsOf source)).linkCount ≤ ink source :=
    calc (Part.block limit (Source.statementsOf source)).linkCount
        ≤ ink (Source.sourceLines source).flatten :=
          Part.linkCount_statements (Part.linkCount_lines limit maxNesting) limit _
      _ ≤ ink source := ink_le_of_sublist (Source.flatten_sourceLines_sublist source)
  have hdrawn := drawn_ofStatements limit direction (Source.statementsOf source)
  constructor
  · have hsize := (Part.block limit (Source.statementsOf source)).size_le_linkCount
    rw [ofSource, hdrawn.nodes, List.length_map, Part.programMarks, List.length_cons,
      Part.length_marks]
    omega
  · rw [ofSource, hdrawn.edges, List.length_map, Part.programLinks, Part.length_links_eq]
    exact hpaid

end Flowchart
