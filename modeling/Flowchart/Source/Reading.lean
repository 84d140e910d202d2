import Flowchart.Source.Body
import Flowchart.Source.Parenthesis
import Flowchart.Source.Statement
import Flowchart.Text.Lines

/-!
# Reading statements

`read` takes one statement off the front of a list of lines, and `statements` takes them all.
A conditional is read with every `else if` arm behind it; the lines below decide, one at a time,
how far a statement goes, and what is not read is given back.

`read_rest_suffix` says that the lines given back end the lines that were given, so that reading
every statement ends.
-/

set_option autoImplicit false

namespace Flowchart.Source

open Text

/-! ## One statement -/

/-- The condition of a header, or the word that stands in for it when it is empty. -/
def orPlaceholder (condition : Text) : Text :=
  if condition.isEmpty then "condition".toList else condition

/-- What follows the first body of a conditional. -/
structure Alternatives where
  /-- The `else if` arms, in order. -/
  arms : List Arm
  /-- The lines after the last `else`. -/
  elseBody : List Text
  rest : List Text
deriving DecidableEq, Repr

/-- The parenthesis group leaves no more text behind than it was given. -/
theorem length_parenGroup_snd_le (t : Text) : (parenGroup t).2.length ≤ t.length := by
  -- A group inside of the group is read at another depth, so the bound is proved for every depth.
  have hclose : ∀ (u : Text) (depth : Nat) (a b : Text),
      closeGroup depth u = some (a, b) → b.length ≤ u.length := by
    intro u
    induction u with
    | nil =>
        intro depth a b h
        cases h
    | cons c u ih =>
        intro depth a b h
        simp only [closeGroup] at h
        split at h
        · cases depth with
          | zero =>
              simp only [Option.some.injEq, Prod.mk.injEq] at h
              obtain ⟨_, rfl⟩ := h
              simp
          | succ depth =>
              obtain ⟨⟨a', b'⟩, h1, h2⟩ := Option.map_eq_some_iff.mp h
              simp only [Prod.mk.injEq] at h2
              obtain ⟨_, rfl⟩ := h2
              have := ih depth a' b' h1
              simp only [List.length_cons]
              omega
        · obtain ⟨⟨a', b'⟩, h1, h2⟩ := Option.map_eq_some_iff.mp h
          simp only [Prod.mk.injEq] at h2
          obtain ⟨_, rfl⟩ := h2
          have := ih _ a' b' h1
          simp only [List.length_cons]
          omega
  unfold parenGroup
  split
  · exact length_strip_le t
  · rename_i before afterOpen hcut
    split
    · rename_i inside rest h
      have h1 := hclose afterOpen 0 inside rest h
      have h2 := length_of_cutAt hcut
      have h3 := length_strip_le rest
      simp only
      omega
    · simp

/-- The arms and the `else` behind a body with the text `trailing` behind it on its last line. -/
def alternatives (trailing : Text) (lines : List Text) : Alternatives :=
  match h : elseAfter trailing lines with
  | (none, rest) => ⟨[], [], rest⟩
  | (some header, rest) =>
      if lineKind header = .conditional then
        let group := parenGroup header
        let body := bodyAfter group.2 rest
        -- The `else` that was found makes what is left smaller.
        have : extent body.rest + body.trailing.length < extent lines + trailing.length := by
          have h1 := extent_elseAfter_lt h
          have h2 := length_parenGroup_snd_le header
          have h3 := extent_bodyAfter_le group.2 rest
          simp only [body, group] at *
          omega
        let others := alternatives body.trailing body.rest
        { others with arms := ⟨orPlaceholder group.1, body.lines⟩ :: others.arms }
      else
        let body := bodyAfter header rest
        ⟨[], body.lines, body.rest⟩
termination_by extent lines + trailing.length

/-- Reads the statement that begins on `line`, with `below` the lines under it: the statement,
unless the line is skipped, and the lines not read. -/
def read (line : Text) (below : List Text) : Option Statement × List Text :=
  match lineKind line with
  | .skipped => (none, below)
  | .function => (some (.function ((functionName? line).getD "anonymous".toList) line), below)
  | .conditional =>
      let group := parenGroup line
      let body := bodyAfter group.2 below
      let others := alternatives body.trailing body.rest
      (some (.conditional ⟨orPlaceholder group.1, body.lines⟩ others.arms others.elseBody line),
        others.rest)
  | .loop =>
      let group := parenGroup line
      let body := bodyAfter group.2 below
      (some (.loop ((loopKeyword? line).getD []) group.1 body.lines line), body.rest)
  | .variable => (some (.variable (stripSemicolon line) line), below)
  | .result => (some (.result (returnValue line) line), below)
  | .plain => (some (.plain line line), below)

/-! ## All statements -/

/-- The lines below the alternatives end the lines that were given. -/
theorem alternatives_rest_suffix (trailing : Text) (lines : List Text) :
    (alternatives trailing lines).rest <:+ lines := by
  fun_induction alternatives trailing lines with
  | case1 trailing lines rest h =>
      have := elseAfter_rest_suffix trailing lines
      rw [h] at this
      exact this
  | case2 trailing lines header rest h hkind group body hlt others ih =>
      have h1 := elseAfter_rest_suffix trailing lines
      rw [h] at h1
      have h2 := bodyAfter_rest_suffix group.2 rest
      exact (ih.trans h2).trans h1
  | case3 trailing lines header rest h hkind body =>
      have h1 := elseAfter_rest_suffix trailing lines
      rw [h] at h1
      exact (bodyAfter_rest_suffix header rest).trans h1

/-- The lines that are not read end the lines below the first. -/
theorem read_rest_suffix (line : Text) (below : List Text) : (read line below).2 <:+ below := by
  unfold read
  split
  · exact List.suffix_refl _
  · exact List.suffix_refl _
  · exact (alternatives_rest_suffix _ _).trans (bodyAfter_rest_suffix _ _)
  · exact bodyAfter_rest_suffix _ _
  · exact List.suffix_refl _
  · exact List.suffix_refl _
  · exact List.suffix_refl _

/-- The statements of a list of lines, in order. -/
def statements : List Text → List Statement
  | [] => []
  | line :: below =>
      have : (read line below).2.length < below.length + 1 :=
        Nat.lt_succ_of_le (read_rest_suffix line below).length_le
      (read line below).1.toList ++ statements (read line below).2
termination_by lines => lines.length

def sourceLines (t : Text) : List Text := (lines t).map strip

def statementsOf (t : Text) : List Statement := statements (sourceLines t)

/-! ## Reading from a position

A position counts lines from the first, which is 0, or back from the end: -1 is the last line.
Reading from a position counted from the end goes on to the last line and then begins again at
the first, up to the last once more. -/

inductive PositionError where
  | outOfRange
deriving DecidableEq, Repr

namespace PositionError

/-- What is said about a position that no line has. -/
def message : PositionError → Text
  | outOfRange => "list index out of range".toList

end PositionError

/-- The lines that are read from a position on; nothing when it lies before the first line. -/
def window? (lines : List Text) (position : Int) : Option (List Text) :=
  if 0 ≤ position then some (lines.drop position.toNat)
  else if position.natAbs ≤ lines.length then
    -- From the position on to the last line, and then all lines once more.
    some (lines.drop (lines.length - position.natAbs) ++ lines)
  else none

/-- The position after reading on from `position` in `window`, with `rest` not read. -/
def advance (position : Int) (window rest : List Text) : Int :=
  position + (window.length - rest.length : Nat)

/-- Reads the statement at a position, and gives the position after it. -/
def readAt (lines : List Text) (position : Int) :
    Except PositionError (Option Statement × Int) :=
  match window? lines position with
  | some (line :: below) =>
      let (statement, rest) := read line below
      .ok (statement, advance position (line :: below) rest)
  | _ => .error .outOfRange

/-- The window of lines that a body or an `else` is looked for in: empty when no line below is
looked at, and an error when one is and the position lies before the first line. -/
def windowIf (looks : Bool) (lines : List Text) (position : Int) :
    Except PositionError (List Text) :=
  match window? lines position with
  | some window => .ok window
  | none => if looks then .error .outOfRange else .ok []

/-- The block whose first line is at a position: its lines, the position after it, and the text
behind it. -/
def blockAt (lines : List Text) (position : Int) :
    Except PositionError (List Text × Int × Text) :=
  (windowIf true lines position).map fun window =>
    let block := blockLines window
    (block.lines, advance position window block.rest, block.trailing)

/-- Whether the lines below a header are looked at for its body. -/
def looksBelow (inline : Text) : Bool :=
  inline.isEmpty || (after? ['{'] inline).any fun inner => (cutAt '}' inner).isNone

/-- The body of a header, with the lines below the header beginning at a position. -/
def bodyAt (lines : List Text) (position : Int) (inline : Text) :
    Except PositionError (List Text × Int × Text) :=
  (windowIf (looksBelow inline) lines position).map fun window =>
    let body := bodyAfter inline window
    (body.lines, advance position window body.rest, body.trailing)

/-- The `else` behind a body, with the lines below the body beginning at a position. -/
def elseAt (lines : List Text) (position : Int) (trailing : Text) :
    Except PositionError (Option Text × Int) :=
  (windowIf trailing.isEmpty lines position).map fun window =>
    let (header, rest) := elseAfter trailing window
    (header, advance position window rest)

end Flowchart.Source
