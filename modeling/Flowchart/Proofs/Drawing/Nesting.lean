import Flowchart.Proofs.Drawing.Degrees
import Flowchart.Proofs.Source.Inline

/-!
# How deep headers nest

Headers that are stacked on one line nest in each other, each of them one level deeper. The first
65 of them are drawn, and what is left of the line then is a plain statement. Main statement:
`nesting_ofSource`.

A body with room for `n` more levels draws `n` headers and one statement behind them, which is the
induction of `Stack.shown_lines`; the top level is the first of the levels, so there are
`maxNesting + 1` of them.
-/

set_option autoImplicit false

namespace Flowchart

open Text Source

/-! ## Stacks of headers -/

/-- Headers on one line, and a tail behind the last of them. -/
def stacked : List Header → (tail : Text) → Text
  | [], tail => tail
  | h :: more, tail => h.text ++ ' ' :: stacked more tail

/-- A line of stacked headers with a plain statement behind them. The line holds no `else`, and the
statement is not one of the texts that are no statement behind a header: what a brace opens, and a
lone semicolon. -/
structure Stack where
  headers : List Header
  tail : Text
  trimmed : strip tail = tail
  tail_ne : tail ≠ []
  plain : lineKind tail = .plain
  unbraced : startsWith ['{'] tail = false
  full : tail ≠ [';']
  unbroken : (stacked headers tail).Unbroken
  elseless : hasPart "else".toList (stacked headers tail) = false

namespace Header

/-- The role of the diamond that a header is drawn as. -/
def role (h : Header) : Role :=
  match h.keyword with
  | .conditional => .conditional
  | _ => .loop

/-- What the diamond of a header says. -/
def label (h : Header) : Text :=
  match h.keyword with
  | .conditional => conditionLabel (orPlaceholder (strip h.condition))
  | keyword => keyword.text ++ ' ' :: strip h.condition

def isConditional (h : Header) : Bool := h.keyword = .conditional

end Header

namespace Stack

def line (s : Stack) : Text := stacked s.headers s.tail

/-- What is drawn as a statement when `levels` headers are drawn: what stands behind them. -/
def rest (s : Stack) (levels : Nat) : Text :=
  if s.headers.length ≤ levels then s.tail else stacked (s.headers.drop levels) s.tail

theorem rest_eq (s : Stack) (levels : Nat) :
    s.rest levels = stacked (s.headers.drop levels) s.tail := by
  unfold rest
  split
  · rename_i h
    rw [List.drop_of_length_le h, stacked]
  · rfl

/-! ## Reading a stack -/

theorem tight_stacked (headers : List Header) {tail : Text} (h : tail.Tight) :
    (stacked headers tail).Tight := by
  induction headers with
  | nil => exact h
  | cons first more ih => exact first.tight_line ih

theorem tight_line (s : Stack) : s.line.Tight :=
  tight_stacked s.headers (tight_of_strip s.tail_ne s.trimmed)

/-- All of the line is the body of a header before it. -/
theorem bodyAfter_line (s : Stack) : bodyAfter s.line [] = ⟨[s.line], [], []⟩ := by
  have hcut : cutAtElse s.line = none := cutAtElse_of_hasPart s.elseless
  obtain ⟨headers, tail, trimmed, tail_ne, plain, unbraced, full, unbroken, elseless⟩ := s
  cases headers with
  | nil => exact bodyAfter_inline tail_ne full unbraced hcut []
  | cons h more =>
      obtain ⟨hbrace, hne, hempty⟩ := h.head_text (' ' :: stacked more tail)
      exact bodyAfter_inline hne hempty hbrace hcut []

/-- Behind the first header of a stack stands the stack of the others. -/
theorem exists_inner {s : Stack} {h : Header} {more : List Header} (hs : s.headers = h :: more) :
    ∃ inner : Stack, inner.headers = more ∧ inner.tail = s.tail ∧
      s.line = h.text ++ ' ' :: inner.line := by
  obtain ⟨headers, tail, trimmed, tail_ne, plain, unbraced, full, unbroken, elseless⟩ := s
  obtain rfl : headers = h :: more := hs
  have hsplit : stacked (h :: more) tail = (h.text ++ [' ']) ++ stacked more tail := by
    rw [stacked, List.append_assoc, List.singleton_append]
  have hunbroken : (stacked more tail).Unbroken := by
    rw [hsplit] at unbroken
    exact (unbroken_append.mp unbroken).2
  have helseless : hasPart "else".toList (stacked more tail) = false :=
    hasPart_of_append (hsplit ▸ elseless)
  exact ⟨⟨more, tail, trimmed, tail_ne, plain, unbraced, full, hunbroken, helseless⟩, rfl, rfl, rfl⟩

end Stack

/-! ## Drawing a stack -/

/-- What is seen of a mark, apart from its number. -/
def Mark.shown (mark : Mark) : Role × Text := (mark.role, mark.label)

namespace Part

theorem marks_sequence_singleton (p : Part) (given : Nat) (cursor : Cursor Vertex) :
    (sequence [p]).marks given cursor = p.marks given cursor := by
  rw [sequence, marks_andThen, sequence, marks_nothing, List.append_nil]

/-- The header of a conditional puts a diamond before its body and a join behind it, that of a loop
a diamond only. -/
theorem shown_header (limit : Int) {body : List Text → Part} (hbody : body [] = nothing)
    (h : Header) (ls : List Text) (line : Text) (given : Nat) (cursor : Cursor Vertex) :
    ∃ inside, ((statement limit body (h.statement ls line)).marks given cursor).map Mark.shown =
      (h.role, h.label) :: ((body ls).marks (given + 1) inside).map Mark.shown ++
        (if h.isConditional then [(.join, "End if".toList)] else []) := by
  obtain ⟨keyword, condition, balanced⟩ := h
  cases keyword with
  | conditional =>
      refine ⟨yesAt given (Header.label ⟨.conditional, condition, balanced⟩), ?_⟩
      rw [Header.statement, statement, chain, chain, hbody, marks_fork, marks_nothing,
        List.nil_append, List.map_cons, List.map_append]
      rfl
  | forLoop =>
      refine ⟨bodyAt given (Header.label ⟨.forLoop, condition, balanced⟩), ?_⟩
      rw [Header.statement, statement, marks_repeated, List.map_cons]
      exact (List.append_nil _).symm
  | whileLoop =>
      refine ⟨bodyAt given (Header.label ⟨.whileLoop, condition, balanced⟩), ?_⟩
      rw [Header.statement, statement, marks_repeated, List.map_cons]
      exact (List.append_nil _).symm

end Part

namespace Stack

/-- What is drawn when `levels` headers are: their diamonds, what stands behind them, and the joins
of those that are conditionals. -/
def shown (s : Stack) (limit : Int) (levels : Nat) : List (Role × Text) :=
  (s.headers.take levels).map (fun h => (h.role, h.label)) ++
    (Role.ofStepKind (stepKind (s.rest levels)), stepLabel limit (s.rest levels)) ::
      List.replicate ((s.headers.take levels).countP Header.isConditional) (.join, "End if".toList)

/-- With room for some levels, as many headers are drawn, and one statement behind them. -/
theorem shown_lines (limit : Int) (room : Nat) (s : Stack) (given : Nat)
    (cursor : Cursor Vertex) :
    ((Part.lines limit room [s.line]).marks given cursor).map Mark.shown = s.shown limit room := by
  induction room generalizing s given cursor with
  | zero =>
      have hlines : Part.lines limit 0 [s.line] = Part.sequence [Part.plain limit s.line] := rfl
      rw [shown, rest_eq, List.drop_zero, List.take_zero, hlines,
        Part.plain_of_not_isAllBlank limit s.tight_line.not_isAllBlank,
        Part.marks_sequence_singleton]
      rfl
  | succ room ih =>
      cases hs : s.headers with
      | nil =>
          have hline : s.line = s.tail := by rw [line, hs, stacked]
          have htail : s.tail.Tight := tight_of_strip s.tail_ne s.trimmed
          rw [shown, rest_eq, hs, hline, Part.lines_plain limit _ htail.not_isAllBlank s.plain,
            Part.marks_sequence_singleton]
          rfl
      | cons h more =>
          obtain ⟨inner, hheaders, htail, hline⟩ := exists_inner hs
          have hinline : Inline (' ' :: inner.line) inner.line :=
            .text inner.tight_line inner.unbroken.1
          have hrest : s.rest (room + 1) = inner.rest room := by
            rw [rest_eq, rest_eq, hs, hheaders, htail, List.drop_succ_cons]
          obtain ⟨inside, hshown⟩ := Part.shown_header limit (Part.lines_nil limit room) h
            [inner.line] (h.text ++ ' ' :: inner.line) given cursor
          rw [hline, Part.lines, statements_header h hinline inner.bodyAfter_line,
            List.map_singleton, Part.marks_sequence_singleton, hshown, ih inner, shown, shown, hs,
            hheaders, hrest, List.take_succ_cons, List.map_cons, List.countP_cons]
          cases h.isConditional with
          | false => simp
          | true => simp [List.replicate_succ']

end Stack

/-! ## The graph of a stack -/

/-- Whether plain statements are drawn with this role. -/
def Role.isPlain : Role → Bool
  | log => true
  | call => true
  | step => true
  | _ => false

theorem Header.shape_role (h : Header) : h.role.shape = .diamond := by
  unfold role
  cases h.keyword <;> rfl

theorem Role.isPlain_ofStepKind (kind : StepKind) : (ofStepKind kind).isPlain = true := by
  cases kind <;> rfl

/-- No plain statement is drawn as a diamond, a start node or a join. -/
theorem Role.not_isPlain_of_shape {role : Role} (h : role.shape = .diamond) :
    role.isPlain = false := by
  cases role <;> first | rfl | cases h

/-- A node that is drawn for a plain statement: a log message, a call or another step. -/
def Node.IsPlain (node : Node) : Prop := node.Plays .log ∨ node.Plays .call ∨ node.Plays .step

instance (node : Node) : Decidable node.IsPlain :=
  inferInstanceAs (Decidable (_ ∨ _ ∨ _))

theorem Mark.isPlain_iff {mark : Mark} : mark.node.IsPlain ↔ mark.role.isPlain = true := by
  rw [Node.IsPlain, Mark.plays_iff, Mark.plays_iff, Mark.plays_iff]
  cases mark.role <;> decide

/-- A graph shows the first headers of a stack, `levels` of them at the most, and what stands behind
them as one statement. -/
structure Graph.Nests (g : Graph) (limit : Int) (s : Stack) (levels : Nat) : Prop where
  start : g.roleCount .start = 1
  diamonds : (g.nodes.countP fun node => node.shape = .text Shape.diamond.name) =
    min s.headers.length levels
  joins : g.roleCount .join = (s.headers.take levels).countP Header.isConditional
  statement : ∃ number, g.nodes.filter (fun node => node.IsPlain) =
    [nodeOf (Role.ofStepKind (stepKind (s.rest levels))) number (stepLabel limit (s.rest levels))]
  /-- There are no other nodes. -/
  nodes : g.nodes.length = g.roleCount .start +
    (g.nodes.countP fun node => node.shape = .text Shape.diamond.name) + g.roleCount .join + 1

namespace Stack

section Counting

variable (limit : Int) (levels : Nat) (s : Stack)

theorem countP_shown (p : Role → Bool) :
    ((s.shown limit levels).countP fun x => p x.1) =
      ((s.headers.take levels).countP fun h => p h.role) +
        (if p (Role.ofStepKind (stepKind (s.rest levels))) then 1 else 0) +
        (if p .join then (s.headers.take levels).countP Header.isConditional else 0) := by
  rw [shown, List.countP_append, List.countP_map, List.countP_cons, List.countP_replicate]
  simp only [Function.comp_def]
  omega

/-- What is neither a diamond nor a statement is a join. -/
theorem countP_shown_role {role : Role} (hshape : role.shape ≠ .diamond)
    (hplain : role.isPlain = false) :
    ((s.shown limit levels).countP fun x => x.1 = role) =
      if .join = role then (s.headers.take levels).countP Header.isConditional else 0 := by
  have hheaders : ((s.headers.take levels).countP fun h => h.role = role) = 0 := by
    rw [List.countP_eq_zero]
    intro h _ heq
    exact hshape (of_decide_eq_true heq ▸ h.shape_role)
  have hkind : Role.ofStepKind (stepKind (s.rest levels)) ≠ role := by
    rintro rfl
    rw [Role.isPlain_ofStepKind] at hplain
    cases hplain
  rw [s.countP_shown limit levels (· = role), hheaders]
  simp only [decide_eq_true_eq, if_neg hkind, Nat.zero_add]

theorem countP_shown_diamond :
    ((s.shown limit levels).countP fun x => x.1.shape = .diamond) =
      min s.headers.length levels := by
  have hheaders : ((s.headers.take levels).countP fun h => h.role.shape = .diamond) =
      (s.headers.take levels).length :=
    List.countP_eq_length.mpr fun h _ => decide_eq_true h.shape_role
  have hkind : (Role.ofStepKind (stepKind (s.rest levels))).shape ≠ .diamond := by
    cases stepKind (s.rest levels) <;> decide
  rw [s.countP_shown limit levels (·.shape = .diamond), hheaders, List.length_take,
    if_neg (by simpa using hkind), if_neg (by decide)]
  omega

theorem filter_shown :
    (s.shown limit levels).filter (fun x => x.1.isPlain) =
      [(Role.ofStepKind (stepKind (s.rest levels)), stepLabel limit (s.rest levels))] := by
  have hheaders : ((s.headers.take levels).map fun h => (h.role, h.label)).filter
      (fun x => x.1.isPlain) = [] := by
    rw [List.filter_eq_nil_iff, List.forall_mem_map]
    intro h _
    rw [Role.not_isPlain_of_shape h.shape_role]
    exact Bool.false_ne_true
  rw [shown, List.filter_append, hheaders, List.nil_append, List.filter_cons,
    List.filter_replicate_of_neg (by decide)]
  simp only [Role.isPlain_ofStepKind, if_true]

theorem length_shown :
    (s.shown limit levels).length = min s.headers.length levels +
      (s.headers.take levels).countP Header.isConditional + 1 := by
  rw [shown, List.length_append, List.length_map, List.length_take, List.length_cons,
    List.length_replicate]
  omega

end Counting

/-- All nodes of a stack in their order. The top level is not counted by `maxNesting`. -/
theorem shown_programMarks (limit : Int) (s : Stack) :
    (Part.programMarks limit (statementsOf s.line)).map Mark.shown =
      (.start, "Start".toList) :: s.shown limit (maxNesting + 1) := by
  have hline : lines s.line = [s.line] := lines_of_unbroken s.unbroken
  have hblock : Part.block limit (statementsOf s.line) =
      Part.lines limit (maxNesting + 1) [s.line] := by
    rw [statementsOf, sourceLines, hline, List.map_singleton, s.tight_line.strip]
    rfl
  rw [Part.programMarks, hblock, List.map_cons, s.shown_lines]
  rfl

end Stack

/-- The graph of headers that are stacked on one line shows the first 65 of them, and the rest of
the line as one statement. -/
theorem nesting_ofSource (limit : Int) (direction : Text) (s : Stack) :
    (Graph.ofSource limit direction s.line).Nests limit s 65 := by
  show (Graph.ofSource limit direction s.line).Nests limit s (maxNesting + 1)
  have hg := drawn_ofStatements limit direction (statementsOf s.line)
  have hshown := s.shown_programMarks limit
  have hcount : ∀ p : Role → Bool,
      ((Part.programMarks limit (statementsOf s.line)).countP fun mark => p mark.role) =
        ((s.shown limit (maxNesting + 1)).countP fun x => p x.1) + if p .start then 1 else 0 := by
    intro p
    have h := congrArg (List.countP fun x => p x.1) hshown
    rwa [List.countP_map, List.countP_cons] at h
  have hstart : (Graph.ofSource limit direction s.line).roleCount .start = 1 := by
    rw [Graph.ofSource, hg.roleCount_eq, hcount (· = .start),
      s.countP_shown_role limit _ (by decide) rfl]
    rfl
  have hjoins : (Graph.ofSource limit direction s.line).roleCount .join =
      (s.headers.take (maxNesting + 1)).countP Header.isConditional := by
    rw [Graph.ofSource, hg.roleCount_eq, hcount (· = .join),
      s.countP_shown_role limit _ (by decide) rfl]
    rfl
  have hdiamonds : ((Graph.ofSource limit direction s.line).nodes.countP fun node =>
      node.shape = .text Shape.diamond.name) = min s.headers.length (maxNesting + 1) := by
    rw [← Graph.reported_eq, Graph.ofSource, hg.reported_eq, hcount (·.shape = .diamond),
      s.countP_shown_diamond limit]
    rfl
  constructor
  case start => exact hstart
  case diamonds => exact hdiamonds
  case joins => exact hjoins
  case statement =>
    have hplain : (fun node : Node => decide node.IsPlain) ∘ Mark.node =
        fun mark => mark.role.isPlain := by
      funext mark
      rw [Function.comp_apply, Bool.eq_iff_iff, decide_eq_true_iff, Mark.isPlain_iff]
    have hfilter := congrArg (List.filter fun x => x.1.isPlain) hshown
    rw [List.filter_map, List.filter_cons_of_neg (by decide), s.filter_shown limit] at hfilter
    obtain ⟨mark, hmarks, hmark⟩ := List.map_eq_singleton_iff.mp hfilter
    obtain ⟨hrole, hlabel⟩ := Prod.mk.inj hmark
    refine ⟨mark.number, ?_⟩
    rw [Graph.ofSource, hg.nodes, List.filter_map, hplain, ← hrole, ← hlabel]
    exact congrArg (List.map Mark.node) hmarks
  case nodes =>
    have hlength := congrArg List.length hshown
    rw [List.length_map, List.length_cons, s.length_shown limit] at hlength
    rw [hstart, hdiamonds, hjoins, Graph.ofSource, hg.nodes, List.length_map, hlength]
    omega

/-- Pairs of a conditional and a loop, each pair in the loop of the one before. -/
def pairedHeaders (n : Nat) : List Header :=
  (List.replicate n
    [⟨.conditional, "a".toList, by decide⟩, ⟨.forLoop, ";;".toList, by decide⟩]).flatten

theorem stacked_pairedHeaders (n : Nat) (tail : Text) :
    stacked (pairedHeaders (n + 1)) tail =
      "if (a) for (;;) ".toList ++ stacked (pairedHeaders n) tail := by
  rw [pairedHeaders, List.replicate_succ, List.flatten_cons]
  rfl

/-- However many the pairs are, their line is one of stacked headers. -/
def Stack.paired (n : Nat) : Stack where
  headers := pairedHeaders n
  tail := "f()".toList
  trimmed := by decide
  tail_ne := by decide
  plain := by decide
  unbraced := by decide
  full := by decide
  unbroken := by
    induction n with
    | zero => decide
    | succ n ih =>
        rw [stacked_pairedHeaders]
        constructor
        · exact fun h => (List.mem_append.mp h).elim (by decide) ih.1
        · exact fun h => (List.mem_append.mp h).elim (by decide) ih.2
  elseless := by
    induction n with
    | zero => decide
    | succ n ih =>
        rw [stacked_pairedHeaders]
        exact ih

/-- The first header that is one too many. -/
theorem nesting_ofSource_paired :
    (Graph.ofSource 25 "TD".toList (Stack.paired 33).line).Nests 25 (Stack.paired 33) 65 ∧
      (Stack.paired 33).rest 65 = "for (;;) f()".toList ∧
      ((Stack.paired 33).headers.take 65).countP Header.isConditional = 33 :=
  ⟨nesting_ofSource 25 "TD".toList (Stack.paired 33), by decide, by decide⟩

end Flowchart
