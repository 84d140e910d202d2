import Flowchart.Proofs.Drawing.Program
import Flowchart.Proofs.Source.Inline

/-!
# Which conditional an `else` belongs to

In `if (a) if (b) x; else y` on one line the `else` is drawn as that of the first conditional, not
of the nearest. Main statement: `danglingElse_ofSource`, for all conditions and statements; with a
line break behind the first condition the same `else` is drawn as that of the second.

The line is cut at the `else` for the sake of the first header, before the second is read
(`cutAtElse_else`).
-/

set_option autoImplicit false

namespace Flowchart

open Text Source

/-! ## Two conditionals and an `else` -/

/-- A text that ends nothing wherever it is written: no group, block, statement or line. -/
structure Text.Inert (t : Text) : Prop where
  ne : t ≠ []
  trimmed : strip t = t
  unmarked : ∀ c ∈ ['(', ')', '{', '}', ';', '\n', '\r'], c ∉ t

instance (t : Text) : Decidable t.Inert :=
  decidable_of_iff
    (t ≠ [] ∧ strip t = t ∧
      ['(', ')', '{', '}', ';', '\n', '\r'].all (fun c => !t.contains c) = true)
    ⟨fun ⟨ne, trimmed, unmarked⟩ => ⟨ne, trimmed, by simpa using unmarked⟩,
      fun h => ⟨h.ne, h.trimmed, by simpa using h.unmarked⟩⟩

/-- A conditional in a conditional, with a statement and another for the case that a condition does
not hold. -/
structure DanglingElse where
  outer : Text
  inner : Text
  first : Text
  second : Text
  outer_inert : outer.Inert
  inner_inert : inner.Inert
  first_inert : first.Inert
  second_inert : second.Inert
  first_plain : lineKind first = .plain
  second_plain : lineKind second = .plain

/-! ## Lines -/

/-- A line as it is read: without blanks at its ends and without line ends. -/
structure Text.IsLine (t : Text) : Prop where
  tight : t.Tight
  unbroken : t.Unbroken

namespace Text.IsLine

variable {t u : Text}

theorem inline (h : t.IsLine) : Inline (' ' :: t) t := .text h.tight h.unbroken.1

theorem append (ht : t.IsLine) (hu : u.IsLine) {between : Text} (h : between.Unbroken) :
    (t ++ between ++ u).IsLine :=
  ⟨tight_append ht.tight.first hu.tight.last between,
    unbroken_append.mpr ⟨unbroken_append.mpr ⟨ht.unbroken, h⟩, hu.unbroken⟩⟩

theorem header {h : Header} (hcondition : h.condition.Unbroken) (ht : t.IsLine) :
    (h.text ++ ' ' :: t).IsLine :=
  ⟨h.tight_line ht.tight, unbroken_append.mpr
    ⟨h.unbroken_text hcondition, unbroken_append (t := [' ']).mpr ⟨by decide, ht.unbroken⟩⟩⟩

end Text.IsLine

/-- Lines are read as they are written, one below the other. -/
theorem Source.sourceLines_join {ls : List Text} (hne : ls ≠ []) (h : ∀ line ∈ ls, line.IsLine) :
    sourceLines (join ['\n'] ls) = ls := by
  have hstrip : ls.map strip = ls.map id :=
    List.map_congr_left fun line hline => (h line hline).tight.strip
  rw [sourceLines, lines_join hne fun line hline => (h line hline).unbroken, hstrip, List.map_id]

namespace Text.Inert

variable {t : Text}

theorem isLine (h : t.Inert) : t.IsLine :=
  ⟨tight_of_strip h.ne h.trimmed, h.unmarked '\n' (by decide), h.unmarked '\r' (by decide)⟩

theorem balanced (h : t.Inert) : t.Balanced :=
  balanced_of_not_mem (h.unmarked '(' (by decide)) (h.unmarked ')' (by decide))

theorem ordinary (h : t.Inert) : ∀ line ∈ [t], line ≠ [] ∧ startsWith ['}'] line = false :=
  List.forall_mem_singleton.mpr ⟨h.ne, startsWith_of_not_mem (h.unmarked '}' (by decide))⟩

/-- All of the text is a body. -/
theorem bodyAfter_eq (h : t.Inert) (lines : List Text) : bodyAfter t lines = ⟨[t], [], lines⟩ := by
  have hsemicolon : ';' ∉ t := h.unmarked ';' (by decide)
  have hbrace : startsWith ['{'] t = false := startsWith_of_not_mem (h.unmarked '{' (by decide))
  refine bodyAfter_inline h.ne ?_ hbrace (cutAtElse_of_not_mem hsemicolon) lines
  rintro rfl
  exact hsemicolon List.mem_cons_self

end Text.Inert

/-- A text between braces. -/
def Text.braced (t : Text) : Text := "\x7b ".toList ++ t ++ " \x7d".toList

theorem Text.IsLine.braced {t : Text} (h : t.IsLine) : t.braced.IsLine :=
  ⟨tight_append ⟨'{', [' '], rfl, by decide⟩ ⟨[' '], '}', rfl, by decide⟩ t,
    unbroken_append.mpr ⟨unbroken_append.mpr ⟨by decide, h.unbroken⟩, by decide⟩⟩

theorem Text.Inert.bodyAfter_braced {t : Text} (h : t.Inert) (behind : Text) (lines : List Text) :
    bodyAfter (t.braced ++ behind) lines = ⟨[t], strip behind, lines⟩ := by
  have hne : ∀ line ∈ [t], line ≠ [] := List.forall_mem_singleton.mpr h.ne
  have hbody : (Layout.oneLine .below).Admits [t] :=
    List.forall_mem_singleton.mpr
      ⟨h.trimmed, h.unmarked ';' (by decide), h.unmarked '}' (by decide)⟩
  exact bodyAfter_oneLine hne hbody behind lines

namespace DanglingElse

def outerHeader (d : DanglingElse) : Header := ⟨.conditional, d.outer, d.outer_inert.balanced⟩

def innerHeader (d : DanglingElse) : Header := ⟨.conditional, d.inner, d.inner_inert.balanced⟩

/-- The inner conditional without the `else`: `if (inner) first`. -/
def alone (d : DanglingElse) : Text := d.innerHeader.text ++ ' ' :: d.first

/-- The inner conditional with the `else` behind a semicolon: `if (inner) first; else second`. -/
def inlined (d : DanglingElse) : Text :=
  d.innerHeader.text ++ ' ' :: (d.first ++ "; else ".toList ++ d.second)

/-- The inner conditional with the `else` and with braces. -/
def braced (d : DanglingElse) : Text :=
  d.innerHeader.text ++ ' ' :: (d.first.braced ++ " else ".toList ++ d.second.braced)

/-- Everything on one line. -/
def oneLine (d : DanglingElse) : Text := d.outerHeader.text ++ ' ' :: d.inlined

/-- The same with a line break behind the first header. -/
def twoLines (d : DanglingElse) : Text := join ['\n'] [d.outerHeader.text, d.inlined]

/-- With braces, and the `else` for the inner conditional. -/
def bracedInner (d : DanglingElse) : Text :=
  join ['\n'] [d.outerHeader.text ++ " \x7b".toList, d.braced, "\x7d".toList]

/-- With braces, and the `else` for the outer conditional. -/
def bracedOuter (d : DanglingElse) : Text :=
  join ['\n'] [d.outerHeader.text ++ " \x7b".toList, d.alone, "\x7d else \x7b".toList, d.second,
    "\x7d".toList]

/-! ## How they are read -/

variable (d : DanglingElse)

/-- A conditional with a line for each case. -/
def choice (condition : Text) (yes no line : Text) : Statement :=
  .conditional ⟨orPlaceholder (strip condition), [yes]⟩ [] [no] line

theorem isLine_alone : d.alone.IsLine :=
  Text.IsLine.header d.inner_inert.isLine.unbroken d.first_inert.isLine

theorem isLine_inlined : d.inlined.IsLine :=
  Text.IsLine.header d.inner_inert.isLine.unbroken
    (d.first_inert.isLine.append d.second_inert.isLine (by decide))

theorem isLine_braced : d.braced.IsLine :=
  Text.IsLine.header d.inner_inert.isLine.unbroken
    (d.first_inert.isLine.braced.append d.second_inert.isLine.braced (by decide))

/-- An opening brace, which ends a line. -/
theorem isLine_brace : Text.IsLine ['{'] :=
  ⟨⟨⟨'{', [], rfl, by decide⟩, [], '{', rfl, by decide⟩, by decide⟩

theorem isLine_closing : Text.IsLine ['}'] :=
  ⟨⟨⟨'}', [], rfl, by decide⟩, [], '}', rfl, by decide⟩, by decide⟩

theorem isLine_opening : (d.outerHeader.text ++ " \x7b".toList).IsLine :=
  Text.IsLine.header d.outer_inert.isLine.unbroken isLine_brace

theorem second_ne_conditional : lineKind d.second ≠ .conditional := by
  rw [d.second_plain]
  decide

theorem not_mem_alone {c : Char} (hopening : c ∉ "if (".toList) (hclosing : c ∉ ") ".toList)
    (hinner : c ∉ d.inner) (hfirst : c ∉ d.first) : c ∉ d.alone := by
  have hsplit : d.alone = "if (".toList ++ d.inner ++ ") ".toList ++ d.first := by
    simp [alone, innerHeader, Header.text, Keyword.text]
  rw [hsplit]
  simp only [List.mem_append, not_or]
  exact ⟨⟨⟨hopening, hinner⟩, hclosing⟩, hfirst⟩

/-- A line with an `else` behind its first semicolon is a body up to there. -/
theorem bodyAfter_else {t u : Text} (ht : t.IsLine) (hsemicolon : ';' ∉ t) (hbrace : '{' ∉ t)
    (hu : u.IsLine) (lines : List Text) :
    bodyAfter (t ++ "; else ".toList ++ u) lines = ⟨[t], "else".toList ++ ' ' :: u, lines⟩ := by
  have hsplit : t ++ "; else ".toList ++ u = t ++ ("; else".toList ++ ' ' :: u) := by simp
  have hcut := cutAtElse_else hsemicolon ht.unbroken.1 hu.inline
  rw [← hsplit] at hcut
  obtain ⟨c, v, rfl, -⟩ := ht.tight.first
  have hc : c ≠ '{' := fun heq => hbrace (heq ▸ List.mem_cons_self)
  rw [bodyAfter_cut (by simp) (by simp) (by simp [startsWith, after?, hc.symm]) hcut,
    ht.tight.strip]

/-- The `else` is taken from the inner conditional before that is read. -/
theorem statementsOf_oneLine :
    statementsOf d.oneLine = [choice d.outer d.alone d.second d.oneLine] := by
  have hline : d.oneLine.IsLine :=
    Text.IsLine.header d.outer_inert.isLine.unbroken d.isLine_inlined
  have hsource : sourceLines d.oneLine = [d.oneLine] :=
    sourceLines_join (List.cons_ne_nil _ _) (List.forall_mem_singleton.mpr hline)
  have hsplit : d.inlined = d.alone ++ "; else ".toList ++ d.second := by
    simp [inlined, alone]
  have hsemicolon : ';' ∉ d.alone := d.not_mem_alone (by decide) (by decide)
    (d.inner_inert.unmarked ';' (by decide)) (d.first_inert.unmarked ';' (by decide))
  have hbrace : '{' ∉ d.alone := d.not_mem_alone (by decide) (by decide)
    (d.inner_inert.unmarked '{' (by decide)) (d.first_inert.unmarked '{' (by decide))
  have hbody := bodyAfter_else d.isLine_alone hsemicolon hbrace d.second_inert.isLine []
  rw [← hsplit] at hbody
  rw [statementsOf, hsource]
  exact statements_ifElse d.outer_inert.balanced d.isLine_inlined.inline hbody
    d.second_inert.isLine.inline d.second_ne_conditional (d.second_inert.bodyAfter_eq [])

/-- On its own the same line is read with its `else`. -/
theorem statements_inlined :
    statements [d.inlined] = [choice d.inner d.first d.second d.inlined] := by
  have hline : (d.first ++ "; else ".toList ++ d.second).IsLine :=
    d.first_inert.isLine.append d.second_inert.isLine (by decide)
  have hbody := bodyAfter_else d.first_inert.isLine (d.first_inert.unmarked ';' (by decide))
    (d.first_inert.unmarked '{' (by decide)) d.second_inert.isLine []
  exact statements_ifElse d.inner_inert.balanced hline.inline hbody d.second_inert.isLine.inline
    d.second_ne_conditional (d.second_inert.bodyAfter_eq [])

theorem statements_braced :
    statements [d.braced] = [choice d.inner d.first d.second d.braced] := by
  have hsecond : d.second.braced.IsLine := d.second_inert.isLine.braced
  have hline : (d.first.braced ++ " else ".toList ++ d.second.braced).IsLine :=
    d.first_inert.isLine.braced.append hsecond (by decide)
  have hword : Tight "else".toList :=
    ⟨⟨'e', "lse".toList, rfl, by decide⟩, "els".toList, 'e', rfl, by decide⟩
  have hsplit : d.first.braced ++ " else ".toList ++ d.second.braced =
      d.first.braced ++ ' ' :: ("else".toList ++ ' ' :: d.second.braced) := by simp
  have hbody := d.first_inert.bodyAfter_braced (' ' :: ("else".toList ++ ' ' :: d.second.braced)) []
  have hlast := d.second_inert.bodyAfter_braced [] []
  rw [← hsplit, (hsecond.inline.text_append hword (by decide)).strip_eq] at hbody
  rw [List.append_nil] at hlast
  exact statements_ifElse d.inner_inert.balanced hline.inline hbody hsecond.inline
    (lineKind_ne_conditional fun _ hc => (Option.some.inj hc).symm) hlast

theorem statementsOf_twoLines :
    statementsOf d.twoLines = [d.outerHeader.statement [d.inlined] d.outerHeader.text] := by
  have houter : d.outerHeader.text.IsLine :=
    ⟨d.outerHeader.tight_text, d.outerHeader.unbroken_text d.outer_inert.isLine.unbroken⟩
  have hsource : sourceLines d.twoLines = [d.outerHeader.text, d.inlined] := by
    refine sourceLines_join (List.cons_ne_nil _ _) ?_
    simp only [List.forall_mem_cons]
    exact ⟨houter, d.isLine_inlined, nofun⟩
  have hne : d.inlined ≠ [] := nofun
  have hopening : d.inlined ≠ ['{'] := nofun
  have hbody : bodyAfter [] [d.inlined] = ⟨[d.inlined], [], []⟩ :=
    bodyAfter_bare hne rfl hopening rfl []
  have hread := statements_header d.outerHeader .nothing hbody
  rw [List.append_nil] at hread
  rw [statementsOf, hsource, hread]

theorem statementsOf_bracedInner :
    statementsOf d.bracedInner =
      [d.outerHeader.statement [d.braced] (d.outerHeader.text ++ " \x7b".toList)] := by
  have hsource : sourceLines d.bracedInner =
      [d.outerHeader.text ++ " \x7b".toList, d.braced, "\x7d".toList] := by
    refine sourceLines_join (List.cons_ne_nil _ _) ?_
    simp only [List.forall_mem_cons]
    exact ⟨d.isLine_opening, d.isLine_braced, isLine_closing, nofun⟩
  have hordinary : ∀ line ∈ [d.braced], line ≠ [] ∧ startsWith ['}'] line = false :=
    List.forall_mem_singleton.mpr ⟨nofun, rfl⟩
  have hbody : bodyAfter ['{'] [d.braced, "\x7d".toList] = ⟨[d.braced], [], []⟩ :=
    bodyAfter_beside hordinary [] []
  rw [statementsOf, hsource]
  exact statements_header d.outerHeader isLine_brace.inline hbody

theorem statementsOf_bracedOuter :
    statementsOf d.bracedOuter =
      [choice d.outer d.alone d.second (d.outerHeader.text ++ " \x7b".toList)] := by
  have hsource : sourceLines d.bracedOuter =
      [d.outerHeader.text ++ " \x7b".toList, d.alone, "\x7d else \x7b".toList, d.second,
        "\x7d".toList] := by
    refine sourceLines_join (List.cons_ne_nil _ _) ?_
    simp only [List.forall_mem_cons]
    have hbetween : Text.Unbroken " else ".toList := by decide
    exact ⟨d.isLine_opening, d.isLine_alone, isLine_closing.append isLine_brace hbetween,
      d.second_inert.isLine, isLine_closing, nofun⟩
  have hordinary : ∀ line ∈ [d.alone], line ≠ [] ∧ startsWith ['}'] line = false :=
    List.forall_mem_singleton.mpr ⟨nofun, rfl⟩
  have hbody : bodyAfter ['{'] [d.alone, "\x7d else \x7b".toList, d.second, "\x7d".toList] =
      ⟨[d.alone], "else \x7b".toList, [d.second, "\x7d".toList]⟩ :=
    bodyAfter_beside hordinary " else \x7b".toList _
  have hlast : bodyAfter ['{'] [d.second, "\x7d".toList] = ⟨[d.second], [], []⟩ :=
    bodyAfter_beside d.second_inert.ordinary [] []
  rw [statementsOf, hsource]
  exact statements_ifElse d.outer_inert.balanced isLine_brace.inline hbody isLine_brace.inline
    (lineKind_ne_conditional (by simp)) hlast

end DanglingElse

/-! ## How they are drawn -/

/-- Statements that are drawn as one part make one graph. -/
theorem Graph.ofStatements_congr {limit : Int} {statements statements' : List Statement}
    (h : Part.block limit statements = Part.block limit statements') (direction : Text) :
    ofStatements limit direction statements = ofStatements limit direction statements' := by
  rw [ofStatements, ofStatements, build_new, build_new, Part.programSteps, Part.programSteps, h]

namespace DanglingElse

/-- The diamond of a condition, with a part for each answer. -/
def diamond (condition : Text) (yes no : Part) : Part :=
  .sequence [.fork (conditionLabel (orPlaceholder (strip condition))) yes no]

variable (limit : Int) (direction : Text) (d : DanglingElse)

/-- With its `else` the inner conditional is drawn alike in both of its layouts. -/
theorem lines_inlined (room : Nat) :
    Part.lines limit (room + 1) [d.inlined] =
      diamond d.inner (Part.lines limit room [d.first]) (Part.lines limit room [d.second]) := by
  rw [Part.lines, d.statements_inlined]
  rfl

theorem lines_braced (room : Nat) :
    Part.lines limit (room + 1) [d.braced] =
      diamond d.inner (Part.lines limit room [d.first]) (Part.lines limit room [d.second]) := by
  rw [Part.lines, d.statements_braced]
  rfl

theorem lines_alone (room : Nat) :
    Part.lines limit (room + 1) [d.alone] =
      diamond d.inner (Part.lines limit room [d.first]) (Part.lines limit room []) := by
  have halone : statements [d.alone] = [d.innerHeader.statement [d.first] d.alone] :=
    statements_header d.innerHeader d.first_inert.isLine.inline (d.first_inert.bodyAfter_eq [])
  rw [Part.lines, halone]
  rfl

theorem lines_first (room : Nat) :
    Part.lines limit room [d.first] = .sequence
      [.single (Role.ofStepKind (stepKind d.first)) (stepLabel limit d.first)] :=
  Part.lines_plain limit room d.first_inert.isLine.tight.not_isAllBlank d.first_plain

theorem lines_second (room : Nat) :
    Part.lines limit room [d.second] = .sequence
      [.single (Role.ofStepKind (stepKind d.second)) (stepLabel limit d.second)] :=
  Part.lines_plain limit room d.second_inert.isLine.tight.not_isAllBlank d.second_plain

/-- On one line the inner conditional is joined before the second statement is drawn. -/
theorem nodes_oneLine :
    (Graph.ofSource limit direction d.oneLine).nodes[4]? =
      some (nodeOf .join 5 "End if".toList) := by
  have hblock : Part.block limit [choice d.outer d.alone d.second d.oneLine] =
      diamond d.outer (Part.lines limit 64 [d.alone]) (Part.lines limit 64 [d.second]) := rfl
  rw [Graph.ofSource, d.statementsOf_oneLine, Graph.nodes_ofStatements, Part.programSteps, hblock,
    d.lines_alone, d.lines_first, d.lines_second, Part.lines_nil]
  rfl

/-- As the other case of the inner conditional the second statement is drawn before any join. -/
theorem nodes_bracedInner :
    (Graph.ofSource limit direction d.bracedInner).nodes[4]? =
      some (nodeOf (Role.ofStepKind (stepKind d.second)) 5 (stepLabel limit d.second)) := by
  have hblock : ∀ line, Part.block limit [d.outerHeader.statement [d.braced] line] =
      diamond d.outer (Part.lines limit 64 [d.braced]) (Part.lines limit 64 []) := fun _ => rfl
  rw [Graph.ofSource, d.statementsOf_bracedInner, Graph.nodes_ofStatements, Part.programSteps,
    hblock, d.lines_braced, d.lines_first, d.lines_second, Part.lines_nil]
  rfl

/-- On one line the `else` is that of the outer conditional and never that of the inner one, to
which it belongs when a line break stands behind the outer condition. -/
theorem danglingElse_ofSource :
    Graph.ofSource limit direction d.oneLine = Graph.ofSource limit direction d.bracedOuter ∧
      Graph.ofSource limit direction d.oneLine ≠ Graph.ofSource limit direction d.bracedInner ∧
      Graph.ofSource limit direction d.twoLines =
        Graph.ofSource limit direction d.bracedInner := by
  refine ⟨?_, ?_, ?_⟩
  · rw [Graph.ofSource, Graph.ofSource, d.statementsOf_oneLine, d.statementsOf_bracedOuter]
    exact Graph.ofStatements_congr rfl direction
  · intro heq
    have hnode := congrArg (fun g : Graph => g.nodes[4]?) heq
    simp only [d.nodes_oneLine, d.nodes_bracedInner, Option.some.injEq] at hnode
    obtain ⟨hrole, -⟩ := nodeId_inj (Value.text.inj (congrArg Node.id hnode))
    have hne : Role.ofStepKind (stepKind d.second) ≠ .join := by
      cases stepKind d.second <;> decide
    exact hne hrole.symm
  · have hblock : ∀ ls line, Part.block limit [d.outerHeader.statement ls line] =
        diamond d.outer (Part.lines limit 64 ls) (Part.lines limit 64 []) := fun _ _ => rfl
    rw [Graph.ofSource, Graph.ofSource, d.statementsOf_twoLines, d.statementsOf_bracedInner]
    refine Graph.ofStatements_congr ?_ direction
    rw [hblock, hblock, d.lines_inlined, d.lines_braced]

/-- Two assignments. -/
def assignments : DanglingElse where
  outer := "a".toList
  inner := "b".toList
  first := "x = 1".toList
  second := "y = 2".toList
  outer_inert := by decide
  inner_inert := by decide
  first_inert := by decide
  second_inert := by decide
  first_plain := by decide
  second_plain := by decide

theorem danglingElse_assignments :
    Graph.ofSource 25 "TD".toList "if (a) if (b) x = 1; else y = 2".toList =
        Graph.ofSource 25 "TD".toList
          "if (a) \x7b\nif (b) x = 1\n\x7d else \x7b\ny = 2\n\x7d".toList ∧
      Graph.ofSource 25 "TD".toList "if (a)\nif (b) x = 1; else y = 2".toList =
        Graph.ofSource 25 "TD".toList
          "if (a) \x7b\nif (b) \x7b x = 1 \x7d else \x7b y = 2 \x7d\n\x7d".toList := by
  obtain ⟨houter, -, hinner⟩ := danglingElse_ofSource 25 "TD".toList assignments
  exact ⟨houter, hinner⟩

/-- The second assignment does not hang off the nearest condition. -/
theorem danglingElse_not_nearest :
    Graph.ofSource 25 "TD".toList "if (a) if (b) x = 1; else y = 2".toList ≠
      Graph.ofSource 25 "TD".toList
        "if (a) \x7b\nif (b) \x7b x = 1 \x7d else \x7b y = 2 \x7d\n\x7d".toList := by
  decide +kernel

end DanglingElse

end Flowchart
