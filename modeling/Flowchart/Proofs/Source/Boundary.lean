import Flowchart.Proofs.Source.Reading

/-!
# Boundaries

A closing brace alone on its line, with an empty line below it, parts a source: what stands above
is read as if the source ended there, and what stands below as if it began there
(`statements_boundary`).

The brace closes a block that is still open, and the empty line holds no `else`, so that nothing
goes on behind the block. A header that waits for its body, or a body that waits for an `else`, gets
neither from the brace. Each reader is therefore compared with itself on lines that just end: what
it finds is the same, and what it leaves is `Ahead`, which says how far into the boundary it has
read.
-/

set_option autoImplicit false

namespace Flowchart.Source

open Text

/-! ## How far the boundary is read -/

/-- A closing brace and an empty line, with other lines below. -/
def boundary (below : List Text) : List Text := ['}'] :: [] :: below

/-- What is left where the lines end, and what is left where a boundary follows them. -/
inductive Ahead (below : List Text) : List Text → List Text → Prop where
  /-- The boundary has not been reached. -/
  | whole (rest : List Text) : Ahead below rest (rest ++ boundary below)
  /-- The brace has closed a block. -/
  | closed : Ahead below [] ([] :: below)

/-- A body read where the lines end, and the same body read where a boundary follows them. When
the brace of the boundary has closed it, nothing trails behind it. -/
inductive Body.Ahead (below : List Text) : Body → Body → Prop where
  | whole (lines : List Text) (trailing : Text) (rest : List Text) :
      Body.Ahead below ⟨lines, trailing, rest⟩ ⟨lines, trailing, rest ++ boundary below⟩
  | closed (lines : List Text) : Body.Ahead below ⟨lines, [], []⟩ ⟨lines, [], [] :: below⟩

variable {below : List Text}

/-- More lines at the beginning of both bodies make no difference. -/
theorem Body.Ahead.prepend {alone before : Body} (h : Body.Ahead below alone before)
    (first : List Text) :
    Body.Ahead below { alone with lines := first ++ alone.lines }
      { before with lines := first ++ before.lines } := by
  cases h with
  | whole lines trailing rest => exact .whole (first ++ lines) trailing rest
  | closed lines => exact .closed (first ++ lines)

theorem Body.Ahead.lines_eq {alone before : Body} (h : Body.Ahead below alone before) :
    before.lines = alone.lines := by
  cases h with
  | whole => rfl
  | closed => rfl

theorem Body.Ahead.rest {alone before : Body} (h : Body.Ahead below alone before) :
    Source.Ahead below alone.rest before.rest := by
  cases h with
  | whole lines trailing rest => exact .whole rest
  | closed => exact .closed

/-! ## Bodies -/

/-- A block that is still open is closed by the brace. -/
theorem blockLines_boundary (below lines : List Text) :
    Body.Ahead below (blockLines lines) (blockLines (lines ++ boundary below)) := by
  induction lines with
  | nil => exact .closed []
  | cons line lines ih =>
      rw [List.cons_append, blockLines, blockLines]
      cases after? ['}'] line with
      | some trailing => exact .whole [] (strip trailing) lines
      | none =>
          by_cases hempty : line.isEmpty = true
          · simpa only [if_pos hempty] using ih
          · simp only [if_neg hempty]
            exact ih.prepend [line]

/-- The brace is no body of its own for a header that has none. -/
theorem bodyBelow_boundary (below lines : List Text) :
    Body.Ahead below (bodyBelow lines) (bodyBelow (lines ++ boundary below)) := by
  cases lines with
  | nil => exact .whole [] [] []
  | cons line lines =>
      rw [List.cons_append, bodyBelow, bodyBelow]
      by_cases hbrace : line = ['{']
      · simpa only [if_pos hbrace] using blockLines_boundary below lines
      · rw [if_neg hbrace, if_neg hbrace]
        by_cases halone : standsAlone line = true
        · rw [if_pos halone, if_pos halone]
          exact .whole [line] [] lines
        · rw [if_neg halone, if_neg halone]
          exact .whole [] [] (line :: lines)

theorem bodyAfter_boundary (below : List Text) (inline : Text) (lines : List Text) :
    Body.Ahead below (bodyAfter inline lines) (bodyAfter inline (lines ++ boundary below)) := by
  unfold bodyAfter
  split
  · exact bodyBelow_boundary below lines
  · split
    · exact .whole [] [] lines
    · unfold bodyBeside
      split
      · rename_i inner _
        split
        · exact .whole _ _ lines
        -- The braces do not close on the line of the header, so the block goes on below.
        · exact (blockLines_boundary below lines).prepend (inlineStatements inner)
      · split
        · exact .whole _ _ lines
        · exact .whole _ _ lines

/-! ## Alternatives -/

/-- Neither line of the boundary opens with an `else`. -/
theorem elseAfter_boundary (below : List Text) (trailing : Text) (lines : List Text) :
    elseAfter trailing (lines ++ boundary below) =
      ((elseAfter trailing lines).1, (elseAfter trailing lines).2 ++ boundary below) := by
  unfold elseAfter
  split
  · cases lines with
    | nil => rfl
    | cons line lines =>
        rw [List.cons_append]
        dsimp only
        split
        · rfl
        · rfl
  · rfl

/-- Behind a block that the brace has closed there are no alternatives. -/
theorem alternatives_closed (below : List Text) :
    alternatives [] ([] :: below) = ⟨[], [], [] :: below⟩ :=
  alternatives_of_none rfl

theorem alternatives_nil : alternatives [] [] = ⟨[], [], []⟩ :=
  alternatives_of_none rfl

/-- The same alternatives, and what is left behind them. -/
structure Alternatives.Ahead (below : List Text) (alone before : Alternatives) : Prop where
  arms : before.arms = alone.arms
  elseBody : before.elseBody = alone.elseBody
  rest : Source.Ahead below alone.rest before.rest

/-- The alternatives behind a body are the same when they are the same with all of the boundary
ahead. -/
theorem Body.Ahead.alternatives {alone before : Body} (h : Body.Ahead below alone before)
    (hwhole : Alternatives.Ahead below (alternatives alone.trailing alone.rest)
      (alternatives alone.trailing (alone.rest ++ boundary below))) :
    Alternatives.Ahead below (Source.alternatives alone.trailing alone.rest)
      (Source.alternatives before.trailing before.rest) := by
  cases h with
  | whole => exact hwhole
  | closed =>
      rw [alternatives_closed, alternatives_nil]
      exact ⟨rfl, rfl, .closed⟩

theorem alternatives_boundary (below : List Text) (trailing : Text) (lines : List Text) :
    Alternatives.Ahead below (alternatives trailing lines)
      (alternatives trailing (lines ++ boundary below)) := by
  fun_induction alternatives trailing lines with
  | case1 trailing lines rest helse =>
      have hbefore := elseAfter_boundary below trailing lines
      rw [helse] at hbefore
      rw [alternatives_of_none hbefore]
      exact ⟨rfl, rfl, .whole rest⟩
  | case2 trailing lines header rest helse hkind group body hlt others ih =>
      have hbefore := elseAfter_boundary below trailing lines
      rw [helse] at hbefore
      have hbody : Body.Ahead below body (bodyAfter group.2 (rest ++ boundary below)) :=
        bodyAfter_boundary below group.2 rest
      obtain ⟨harms, helseBody, hrest⟩ := hbody.alternatives ih
      rw [alternatives_of_arm hbefore hkind rfl]
      exact ⟨by rw [harms, hbody.lines_eq], helseBody, hrest⟩
  | case3 trailing lines header rest helse hkind body =>
      have hbefore := elseAfter_boundary below trailing lines
      rw [helse] at hbefore
      have hbody : Body.Ahead below body (bodyAfter header (rest ++ boundary below)) :=
        bodyAfter_boundary below header rest
      rw [alternatives_of_last hbefore hkind rfl]
      exact ⟨rfl, hbody.lines_eq, hbody.rest⟩

/-! ## Statements -/

/-- One statement is read the same, up to how far into the boundary its block goes. -/
theorem read_boundary (below : List Text) (line : Text) (lines : List Text) :
    (read line (lines ++ boundary below)).1 = (read line lines).1 ∧
      Ahead below (read line lines).2 (read line (lines ++ boundary below)).2 := by
  unfold read
  split
  · exact ⟨rfl, .whole lines⟩
  · exact ⟨rfl, .whole lines⟩
  · have hbody := bodyAfter_boundary below (parenGroup line).2 lines
    obtain ⟨harms, helseBody, hrest⟩ := hbody.alternatives (alternatives_boundary below _ _)
    exact ⟨by simp only [hbody.lines_eq, harms, helseBody], hrest⟩
  · have hbody := bodyAfter_boundary below (parenGroup line).2 lines
    exact ⟨by simp only [hbody.lines_eq], hbody.rest⟩
  · exact ⟨rfl, .whole lines⟩
  · exact ⟨rfl, .whole lines⟩
  · exact ⟨rfl, .whole lines⟩

theorem statements_of_skipped {line : Text} (h : lineKind line = .skipped) (lines : List Text) :
    statements (line :: lines) = statements lines := by
  rw [statements_cons, Source.read, h]
  rfl

/-- The statements that are left are those of the lines alone and those below the boundary, when
this is so with all of the boundary ahead. -/
theorem Ahead.statements {alone before : List Text} (h : Ahead below alone before)
    (hwhole : statements (alone ++ boundary below) = statements alone ++ statements below) :
    Source.statements before = Source.statements alone ++ Source.statements below := by
  cases h with
  | whole => exact hwhole
  | closed => rw [statements_of_skipped (by decide), statements_nil, List.nil_append]

/-- The statements above a closing brace and an empty line are those of the lines above alone, and
those below are those of the lines below alone. -/
theorem statements_boundary (above below : List Text) :
    statements (above ++ ['}'] :: [] :: below) = statements above ++ statements below := by
  fun_induction statements above with
  | case1 =>
      rw [List.nil_append, List.nil_append, statements_of_skipped (by decide),
        statements_of_skipped (by decide)]
  | case2 line above _ ih =>
      obtain ⟨hstatement, hrest⟩ := read_boundary below line above
      calc statements (line :: above ++ boundary below)
          = (read line (above ++ boundary below)).1.toList ++
              statements (read line (above ++ boundary below)).2 := statements_cons _ _
        _ = (read line above).1.toList ++
              (statements (read line above).2 ++ statements below) := by
            rw [hstatement, hrest.statements ih]
        _ = (read line above).1.toList ++ statements (read line above).2 ++ statements below :=
            (List.append_assoc _ _ _).symm

end Flowchart.Source
