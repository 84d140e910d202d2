import Flowchart.Proofs.Source.Position

/-!
# One line of lookahead

To know where a statement ends, its reader looks at one line behind it and at no other. Main
statement: `readAt_lookahead`, a statement is read the same from all lines that agree from its
first line on to the line behind it. So more lines at the end of a source change its last statement
at most.

A reader that leaves a line unread cannot have looked behind that line. Each reader is therefore
compared with itself on lines of which only the end is another, `after'` in place of `after`; what
it leaves above that end is `left`. In a chain of readers the lines that the last one leaves are
left by all of them, so that `left` need only be known there.
-/

set_option autoImplicit false

open scoped List

namespace Flowchart.Source

open Text

variable {shown left after : List Text}

/-! ## Bodies -/

/-- A reader that leaves something above the end has been shown something above it. -/
theorem not_suffix_of_ne_nil (hleft : left ≠ []) : ¬ left ++ after <:+ after := by
  intro h
  have hle := h.length_le
  have hpos := List.length_pos_iff.mpr hleft
  rw [List.length_append] at hle
  omega

theorem blockLines_lookahead (hleft : left ≠ [])
    (h : (blockLines (shown ++ after)).rest = left ++ after) (after' : List Text) :
    blockLines (shown ++ after') = { blockLines (shown ++ after) with rest := left ++ after' } := by
  induction shown with
  | nil => exact absurd (h ▸ blockLines_rest_suffix after) (not_suffix_of_ne_nil hleft)
  | cons line shown ih =>
      rw [List.cons_append, blockLines] at h ⊢
      rw [List.cons_append, blockLines]
      cases hclose : after? ['}'] line with
      | some trailing =>
          simp only [hclose] at h ⊢
          rw [List.append_cancel_right h]
      | none =>
          simp only [hclose] at h ⊢
          by_cases hempty : line.isEmpty = true
          · simp only [if_pos hempty] at h ⊢
            exact ih h
          · simp only [if_neg hempty] at h ⊢
            rw [ih h]

theorem bodyBelow_lookahead (hleft : left ≠ [])
    (h : (bodyBelow (shown ++ after)).rest = left ++ after) (after' : List Text) :
    bodyBelow (shown ++ after') = { bodyBelow (shown ++ after) with rest := left ++ after' } := by
  cases shown with
  | nil =>
      have hsuffix := bodyAfter_rest_suffix [] after
      exact absurd (h ▸ hsuffix) (not_suffix_of_ne_nil hleft)
  | cons line shown =>
      rw [List.cons_append, bodyBelow] at h ⊢
      rw [List.cons_append, bodyBelow]
      by_cases hbrace : line = ['{']
      · simp only [if_pos hbrace] at h ⊢
        exact blockLines_lookahead hleft h after'
      · simp only [if_neg hbrace] at h ⊢
        by_cases halone : standsAlone line = true
        · simp only [if_pos halone] at h ⊢
          rw [List.append_cancel_right h]
        · simp only [if_neg halone] at h ⊢
          rw [← List.cons_append] at h
          rw [← List.append_cancel_right h, List.cons_append]

theorem bodyBeside_lookahead {inline : Text} (hleft : left ≠ [])
    (h : (bodyBeside inline (shown ++ after)).rest = left ++ after) (after' : List Text) :
    bodyBeside inline (shown ++ after') =
      { bodyBeside inline (shown ++ after) with rest := left ++ after' } := by
  unfold bodyBeside at h ⊢
  cases hopen : after? ['{'] inline with
  | some inner =>
      simp only [hopen] at h ⊢
      cases hcut : cutAt '}' inner with
      | some found =>
          simp only [hcut] at h ⊢
          rw [List.append_cancel_right h]
      -- The block goes on below, and what stands beside its brace is looked at already.
      | none =>
          simp only [hcut] at h ⊢
          rw [blockLines_lookahead hleft h after']
  | none =>
      simp only [hopen] at h ⊢
      cases hcut : cutAtElse inline with
      | some found =>
          simp only [hcut] at h ⊢
          rw [List.append_cancel_right h]
      | none =>
          simp only [hcut] at h ⊢
          rw [List.append_cancel_right h]

theorem bodyAfter_lookahead {inline : Text} (hleft : left ≠ [])
    (h : (bodyAfter inline (shown ++ after)).rest = left ++ after) (after' : List Text) :
    bodyAfter inline (shown ++ after') =
      { bodyAfter inline (shown ++ after) with rest := left ++ after' } := by
  unfold bodyAfter at h ⊢
  by_cases hempty : inline.isEmpty = true
  · simp only [if_pos hempty] at h ⊢
    exact bodyBelow_lookahead hleft h after'
  · simp only [if_neg hempty] at h ⊢
    by_cases hsemicolon : inline = [';']
    · simp only [if_pos hsemicolon] at h ⊢
      rw [List.append_cancel_right h]
    · simp only [if_neg hsemicolon] at h ⊢
      exact bodyBeside_lookahead hleft h after'

/-! ## Alternatives -/

/-- Whether there is an `else` shows on the first line at the latest. -/
theorem elseAfter_lookahead {trailing : Text} (hleft : left ≠ [])
    (h : (elseAfter trailing (shown ++ after)).2 = left ++ after) (after' : List Text) :
    elseAfter trailing (shown ++ after') =
      ((elseAfter trailing (shown ++ after)).1, left ++ after') := by
  unfold elseAfter at h ⊢
  by_cases hempty : trailing.isEmpty = true
  · simp only [if_pos hempty] at h ⊢
    cases shown with
    | nil =>
        have hsuffix := elseAfter_rest_suffix [] after
        exact absurd (h ▸ hsuffix) (not_suffix_of_ne_nil hleft)
    | cons line shown =>
        simp only [List.cons_append] at h ⊢
        cases helse : elseHeader? line with
        | some header =>
            simp only [helse] at h ⊢
            rw [List.append_cancel_right h]
        | none =>
            simp only [helse] at h ⊢
            rw [← List.cons_append] at h
            rw [← List.append_cancel_right h, List.cons_append]
  · simp only [if_neg hempty] at h ⊢
    rw [List.append_cancel_right h]

/-- A reader that goes on to `left` has left all of it before. -/
theorem exists_left {rest : List Text} (hleft : left ≠ []) (h : left ++ after <:+ rest) :
    ∃ left', left' ≠ [] ∧ rest = left' ++ after := by
  obtain ⟨first, rfl⟩ := h
  exact ⟨first ++ left, List.append_ne_nil_of_right_ne_nil first hleft,
    (List.append_assoc first left after).symm⟩

theorem alternatives_lookahead {trailing : Text} {lines : List Text}
    (hlines : lines = shown ++ after) (hleft : left ≠ [])
    (h : (alternatives trailing lines).rest = left ++ after) (after' : List Text) :
    alternatives trailing (shown ++ after') =
      { alternatives trailing lines with rest := left ++ after' } := by
  induction trailing, lines using alternatives.induct generalizing shown with
  | case1 trailing lines rest hnone =>
      rw [alternatives_of_none hnone] at h ⊢
      subst hlines
      have helse := elseAfter_lookahead hleft (by rw [hnone]; exact h) after'
      rw [hnone] at helse
      exact alternatives_of_none helse
  | case2 trailing lines header rest hsome hkind group body _ =>
      rename_i ih
      rw [alternatives_of_arm hsome hkind rfl] at h ⊢
      change (alternatives body.trailing body.rest).rest = left ++ after at h
      have hothers : left ++ after <:+ body.rest := h ▸ alternatives_rest_suffix _ _
      obtain ⟨behind, hbehind, hrest⟩ :=
        exists_left hleft (hothers.trans (bodyAfter_rest_suffix group.2 rest))
      obtain ⟨below, hbelow, hbody⟩ := exists_left hleft hothers
      subst hlines hrest
      have helse := elseAfter_lookahead hbehind (by rw [hsome]) after'
      rw [hsome] at helse
      rw [alternatives_of_arm helse hkind (bodyAfter_lookahead hbelow hbody after'), ih hbody h]
  | case3 trailing lines header rest hsome hkind =>
      rw [alternatives_of_last hsome hkind rfl] at h ⊢
      change (bodyAfter header rest).rest = left ++ after at h
      obtain ⟨behind, hbehind, hrest⟩ :=
        exists_left hleft (h ▸ bodyAfter_rest_suffix header rest)
      subst hlines hrest
      have helse := elseAfter_lookahead hbehind (by rw [hsome]) after'
      rw [hsome] at helse
      exact alternatives_of_last helse hkind (bodyAfter_lookahead hleft h after')

/-! ## Statements -/

/-- A statement is read the same whatever stands behind the lines that its reader leaves. -/
theorem read_lookahead {line : Text} (hleft : left ≠ [])
    (h : (read line (shown ++ after)).2 = left ++ after) (after' : List Text) :
    read line (shown ++ after') = ((read line (shown ++ after)).1, left ++ after') := by
  cases hkind : lineKind line with
  | conditional =>
      let body := bodyAfter (parenGroup line).2 (shown ++ after)
      rw [read_conditional hkind rfl rfl] at h
      change (alternatives body.trailing body.rest).rest = left ++ after at h
      obtain ⟨behind, hbehind, hrest⟩ := exists_left hleft (h ▸ alternatives_rest_suffix _ _)
      have hbody := bodyAfter_lookahead hbehind hrest after'
      rw [read_conditional hkind hbody (alternatives_lookahead hrest hleft h after'),
        read_conditional hkind rfl rfl]
  | loop =>
      obtain ⟨keyword, hkeyword⟩ := exists_loopKeyword? hkind
      rw [read_loop hkind hkeyword rfl] at h
      rw [read_loop hkind hkeyword (bodyAfter_lookahead hleft h after'),
        read_loop hkind hkeyword rfl]
  | skipped | function | «variable» | result | plain =>
      simp only [Source.read, hkind] at h ⊢
      rw [List.append_cancel_right h]

/-- More lines at the end keep all statements but the last, which may go on in them. -/
theorem dropLast_statements_prefix (above below : List Text) :
    (statements above).dropLast <+: statements (above ++ below) := by
  fun_induction statements above with
  | case1 => exact List.nil_prefix
  | case2 line above _ ih =>
      rw [List.cons_append, statements_cons]
      by_cases hleft : (read line above).2 = []
      -- The statement is the last one, and nothing is claimed of it.
      · rw [hleft, statements_nil, List.append_nil]
        cases (read line above).1 with
        | none => exact List.nil_prefix
        | some s => exact List.nil_prefix
      · have hread := @read_lookahead above (read line above).2 [] line hleft
          (by rw [List.append_nil, List.append_nil]) below
        rw [List.append_nil] at hread
        rw [hread]
        cases hmore : statements (read line above).2 with
        | nil =>
            rw [List.append_nil]
            cases (read line above).1 with
            | none => exact List.nil_prefix
            | some s => exact List.nil_prefix
        | cons s more =>
            rw [List.dropLast_append_of_ne_nil (List.cons_ne_nil s more), ← hmore]
            exact (List.prefix_append_right_inj _).mpr ih

/-! ## Positions -/

/-- Lines that agree with `known` from a position on begin with it there. -/
theorem drop_eq_of_agree {lines lines' known below : List Text} {i : Nat}
    (h : lines.drop i = known ++ below)
    (hagree : ∀ k, i ≤ k → k < i + known.length → lines'[k]? = lines[k]?) :
    ∃ below', lines'.drop i = known ++ below' := by
  have htake : (lines'.drop i).take known.length = known := by
    refine List.ext_getElem? fun k => ?_
    by_cases hk : k < known.length
    · rw [List.getElem?_take_of_lt hk, List.getElem?_drop, hagree (i + k) (by omega) (by omega),
        ← List.getElem?_drop, h, List.getElem?_append_left hk]
    · rw [List.getElem?_eq_none (by simp only [List.length_take]; omega),
        List.getElem?_eq_none (by omega)]
  refine ⟨(lines'.drop i).drop known.length, ?_⟩
  calc lines'.drop i
      = (lines'.drop i).take known.length ++ (lines'.drop i).drop known.length :=
        (List.take_append_drop ..).symm
    _ = known ++ (lines'.drop i).drop known.length := by rw [htake]

/-- A statement that ends above a line is read the same from all lines that agree from its first
line on to that line. So more lines at the end of a source keep all its statements but the last. -/
theorem readAt_lookahead :
    (∀ (lines : List Text) (i : Nat) (s : Option Statement) (n : Int),
      readAt lines i = .ok (s, n) → n < lines.length →
        ∀ lines' : List Text, (∀ k : Nat, i ≤ k → k ≤ n → lines'[k]? = lines[k]?) →
          readAt lines' i = .ok (s, n)) ∧
      ∀ above below : List Text, (statements above).dropLast <+: statements (above ++ below) := by
  refine ⟨?_, dropLast_statements_prefix⟩
  intro lines i s n hread hlt lines' hagree
  obtain ⟨line, below, hdrop, rfl, rfl⟩ := drop_of_readAt hread
  obtain ⟨shown, hshown⟩ := read_rest_suffix line below
  have hlength : lines.length = i + (below.length + 1) := by
    have h := congrArg List.length hdrop
    rw [List.length_drop, List.length_cons] at h
    omega
  unfold advance at hlt hagree ⊢
  rw [List.length_cons] at hlt hagree ⊢
  cases hleft : (read line below).2 with
  | nil =>
      rw [hleft, List.length_nil] at hlt
      omega
  | cons next after =>
      -- The line behind the statement is `next`, and the lines agree down to it.
      have hbelow : below = shown ++ [next] ++ after := by
        rw [← hshown, hleft, List.append_assoc, List.singleton_append]
      have hcount : below.length = shown.length + 1 + after.length := by
        rw [hbelow, List.length_append, List.length_append, List.length_singleton]
      rw [hleft, List.length_cons] at hagree
      obtain ⟨after', hdrop'⟩ : ∃ after', lines'.drop i = line :: (shown ++ [next]) ++ after' := by
        refine @drop_eq_of_agree lines lines' _ after i ?_ fun k hk hlt => ?_
        · rw [hdrop, hbelow, List.cons_append]
        · rw [List.length_cons, List.length_append, List.length_singleton] at hlt
          exact hagree k hk (by omega)
      have hsame : read line (shown ++ [next] ++ after') =
          ((read line below).1, [next] ++ after') := by
        rw [hbelow] at hleft ⊢
        exact read_lookahead (List.cons_ne_nil next []) hleft after'
      rw [List.cons_append] at hdrop'
      rw [readAt_of_drop hdrop', hsame]
      unfold advance
      simp only [List.length_cons, List.length_append, List.length_nil, hcount]
      rw [show shown.length + (0 + 1) + after'.length + 1 - (0 + 1 + after'.length) =
        shown.length + 1 + after.length + 1 - (after.length + 1) by omega]

/-- A conditional whose `else` is seen on the line behind its block, and that ends above `z`. -/
def closed : List Text :=
  ["w", "if (a) \x7b", "x", "\x7d", "else y", "z", "else v"].map String.toList

/-- Other lines around the same conditional. -/
def enclosed : List Text := ["\x7d", "if (a) \x7b", "x", "\x7d", "else y", "z"].map String.toList

/-- The conditional that both hold. -/
def closedStatement : Statement :=
  .conditional ⟨"a".toList, ["x".toList]⟩ [] ["y".toList] "if (a) \x7b".toList

theorem readAt_closed : readAt closed (1 : Nat) = .ok (some closedStatement, 5) := by
  have hbody : bodyAfter (parenGroup "if (a) \x7b".toList).2
      (["x", "\x7d", "else y", "z", "else v"].map String.toList) =
        ⟨["x".toList], [], ["else y", "z", "else v"].map String.toList⟩ := rfl
  have helse : elseAfter [] (["else y", "z", "else v"].map String.toList) =
      (some "y".toList, ["z", "else v"].map String.toList) := rfl
  have hread := read_conditional (by decide) hbody (alternatives_of_last helse (by decide) rfl)
  have hdrop : closed.drop 1 = "if (a) \x7b".toList ::
      ["x", "\x7d", "else y", "z", "else v"].map String.toList := rfl
  rw [readAt_of_drop hdrop, hread]
  rfl

theorem readAt_lookahead_else :
    readAt closed (1 : Nat) = .ok (some closedStatement, 5) ∧ (5 : Int) < closed.length ∧
      (∀ k : Nat, 1 ≤ k → (k : Int) ≤ 5 → enclosed[k]? = closed[k]?) ∧
      readAt enclosed (1 : Nat) = .ok (some closedStatement, 5) := by
  have hlt : (5 : Int) < closed.length := by decide
  have hagree : ∀ k : Nat, 1 ≤ k → (k : Int) ≤ 5 → enclosed[k]? = closed[k]? := by
    intro k hlow hhigh
    obtain rfl | rfl | rfl | rfl | rfl : k = 1 ∨ k = 2 ∨ k = 3 ∨ k = 4 ∨ k = 5 := by omega
    all_goals rfl
  exact ⟨readAt_closed, hlt, hagree,
    readAt_lookahead.1 closed 1 _ 5 readAt_closed hlt enclosed hagree⟩

end Flowchart.Source
