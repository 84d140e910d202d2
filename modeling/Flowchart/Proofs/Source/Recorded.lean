import Flowchart.Proofs.Source.Position
import Flowchart.Proofs.Source.Substance

/-!
# What statements record

The texts that a statement records are cut from the lines that it is read from, each from a place of
its own and in the order of the lines: nothing is made up, taken twice or moved
(`recorded_sublist`). The words that stand in for a missing condition or value are no such texts.

A statement records no more than its substance, and the substance and the lines that are not read
are in the lines that were given, one behind the other (`Source.sublist_read`). Both sides end in
the lines that are not read, which can be taken off.
-/

set_option autoImplicit false

open scoped List

namespace Flowchart

open Text

/-! ## Recorded texts -/

/-- The texts of an arm: its condition, where one is written, and the lines of its body. -/
def Arm.recorded (a : Arm) : List Text := written a.condition :: a.body

/-- The texts that a statement records, in order. -/
def Statement.recorded : Statement → List Text
  | function name _ => [name]
  | conditional first more elseBody _ => (first :: more).flatMap Arm.recorded ++ elseBody
  | loop keyword condition body _ => keyword :: condition :: body
  | «variable» content _ => [content]
  | result value _ => if value = "void".toList then [] else [value]
  | plain content _ => [content]

theorem Arm.recorded_sublist_substance (a : Arm) : a.recorded.flatten <+ a.substance :=
  List.sublist_append_right "if(".toList _

theorem flatten_flatMap_recorded_sublist (arms : List Arm) :
    (arms.flatMap Arm.recorded).flatten <+ arms.flatMap Arm.substance := by
  induction arms with
  | nil => exact List.Sublist.refl _
  | cons a arms ih =>
      rw [List.flatMap_cons, List.flatMap_cons, List.flatten_append]
      exact a.recorded_sublist_substance.append ih

/-- What a statement records is part of its substance. -/
theorem Statement.recorded_sublist_substance (s : Statement) :
    s.recorded.flatten <+ s.substance := by
  cases s with
  | function name line =>
      rw [recorded, List.flatten_singleton]
      exact List.sublist_append_right "function".toList name
  | conditional first more elseBody line =>
      rw [recorded, List.flatten_append]
      exact (flatten_flatMap_recorded_sublist (first :: more)).append_right elseBody.flatten
  | loop keyword condition body line =>
      rw [recorded, List.flatten_cons, List.flatten_cons]
      exact (List.sublist_cons_self '(' _).append_left keyword
  | «variable» content line =>
      rw [recorded, List.flatten_singleton]
      exact List.Sublist.refl content
  | result value line =>
      refine List.Sublist.trans ?_ (List.sublist_append_right "return".toList _)
      rw [recorded]
      by_cases hvoid : value = "void".toList
      · rw [if_pos hvoid, if_pos hvoid]
        exact List.Sublist.refl _
      · rw [if_neg hvoid, if_neg hvoid]
        exact List.flatten_singleton.symm ▸ List.Sublist.refl value
  | plain content line =>
      rw [recorded, List.flatten_singleton]
      exact List.Sublist.refl content

/-! ## The lines that a statement is read from -/

namespace Source

/-- A statement records parts of the lines above those that are not read. -/
theorem recorded_sublist_read {line : Text} {taken rest : List Text} {s : Statement}
    (h : read line (taken ++ rest) = (some s, rest)) :
    s.recorded.flatten <+ (line :: taken).flatten := by
  have hread := sublist_read line (taken ++ rest)
  rw [h, Option.toList_some, List.flatMap_singleton, List.flatten_append,
    ← List.append_assoc] at hread
  -- The lines that are not read end both sides.
  exact s.recorded_sublist_substance.trans ((List.append_sublist_append_right _).mp hread)

/-- From every line a reading comes to a place behind it, and the texts that the statement there
records are found in the lines between the two, in order and apart from each other. -/
theorem recorded_sublist (lines : List Text) (i : Nat) (hi : i < lines.length) :
    ∃ (s : Option Statement) (n : Nat), readAt lines i = .ok (s, n) ∧ i < n ∧ n ≤ lines.length ∧
      ∀ statement ∈ s, statement.recorded.flatten <+ ((lines.take n).drop i).flatten := by
  have hdrop := List.drop_eq_getElem_cons hi
  obtain ⟨taken, htaken⟩ := read_rest_suffix lines[i] (lines.drop (i + 1))
  let rest := (read lines[i] (lines.drop (i + 1))).2
  have hcount : taken.length + rest.length = lines.length - (i + 1) := by
    rw [← List.length_append, htaken, List.length_drop]
  refine ⟨(read lines[i] (lines.drop (i + 1))).1, i + 1 + taken.length, ?_, by omega, by omega, ?_⟩
  · rw [readAt_of_drop hdrop]
    have hposition : advance i (lines[i] :: lines.drop (i + 1)) rest =
        (i + 1 + taken.length : Nat) := by
      unfold advance
      rw [List.length_cons, List.length_drop]
      omega
    rw [hposition]
  · intro s hs
    have hlines : (lines.take (i + 1 + taken.length)).drop i = lines[i] :: taken := by
      rw [List.drop_take, hdrop, ← htaken,
        show i + 1 + taken.length - i = taken.length + 1 by omega,
        List.take_succ_cons, List.take_left]
    rw [hlines]
    have hread : read lines[i] (taken ++ rest) = (some s, rest) := by
      rw [htaken]
      exact Prod.ext hs rfl
    exact recorded_sublist_read hread

/-- Lines that hold a conditional with three answers, which stand on one line, below one and in a
block. -/
def threeAnswers : List Text :=
  ["x", "if (a) \x7b b; c \x7d else if (d)", "e", "else \x7b", "f", "\x7d", "g"].map String.toList

theorem recorded_sublist_threeAnswers :
    1 < threeAnswers.length ∧
      ∃ (s : Option Statement) (n : Nat), readAt threeAnswers (1 : Nat) = .ok (s, n) ∧ 1 < n ∧
        n ≤ threeAnswers.length ∧
          ∀ statement ∈ s,
            statement.recorded.flatten <+ ((threeAnswers.take n).drop 1).flatten := by
  have hlt : 1 < threeAnswers.length := by decide
  exact ⟨hlt, recorded_sublist threeAnswers 1 hlt⟩

end Source

end Flowchart
