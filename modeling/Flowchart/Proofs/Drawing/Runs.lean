import Flowchart.Proofs.Drawing.Program

/-!
# Walks through a drawing are the runs of the program

A part is a structured program, and `Part.runs` is the language of its runs: a run passes the
nodes of the part, and speaks the answer that is given at each diamond of a conditional. The part
of a program, `Part.block`, has the statements one behind the other, each body as it is read.

Main statement: in the graph of a program, the readings of the walks from the start node to the
node that the drawing arrives at are the runs of the program (`readings_eq_runs`).

The induction behind it is on the part (`between_exit`). Where a part adds nothing the label of
the cursor is spoken behind the part, and otherwise on its first link; the equation has that label
on both sides, so it covers an empty branch and the others alike.
-/

set_option autoImplicit false

namespace Flowchart

open Computability

namespace Part

/-! ## Runs -/

/-- The language of the runs of a part, when `given` identifiers have been given out before it. -/
def runs : Part → (given : Nat) → Language Event
  | nothing, _ => 1
  | single role label, given => {[.node (Mark.node ⟨role, given + 1, label⟩)]}
  | andThen first second, given => first.runs given * second.runs (given + first.size)
  | fork label yes no, given =>
      {[.node (forkMark given label).node]} *
        ({[.answer "Yes".toList]} * yes.runs (given + 1) +
          {[.answer "No".toList]} * no.runs (given + 1 + yes.size)) *
        {[.node (joinMark given yes no).node]}
  | repeated label body, given =>
      {[.node (loopMark given label).node]} *
        (body.runs (given + 1) * {[.node (loopMark given label).node]})∗

/-- The runs of a whole program. -/
def programRuns (limit : Int) (statements : List Statement) : Language Event :=
  {[.node (startMark 0).node]} * (block limit statements).runs 1

/-! ## Paths through a part -/

theorem singleton_mul_singleton (v w : List Event) :
    ({v} : Language Event) * {w} = {v ++ w} := by
  ext word
  rw [Language.mem_mul]
  constructor
  · rintro ⟨_, rfl, _, rfl, rfl⟩
    rfl
  · rintro rfl
    exact ⟨v, rfl, w, rfl, rfl⟩

theorem word_eq_mul (link : Link) :
    ({link.word} : Language Event) = {spoken link.label} * {[.node link.target.node]} :=
  (singleton_mul_singleton _ _).symm

theorem singleton_nil : ({[]} : Language Event) = 1 := rfl

variable {given : Nat} {cursor : Cursor Vertex}

/-- The paths over the link to a node, and behind it. -/
theorem between_entry {mark : Mark} {links : List Link} {w : Vertex}
    (hcursor : cursor.node.number ≤ given) (hmark : given < mark.number)
    (hlinks : ∀ link ∈ links, given < link.source.number ∧ given < link.target.number)
    (hw : given < w.number) :
    between (⟨cursor.node, cursor.label, .made mark⟩ :: links) cursor.node w =
      {spoken cursor.label} * ({[.node mark.node]} * between links (.made mark) w) := by
  have h := @between_cons links w ⟨cursor.node, cursor.label, .made mark⟩ given hcursor hmark
    hlinks hw
  rw [h, word_eq_mul, mul_assoc]
  rfl

theorem between_single {mark : Mark} (hcursor : cursor.node.number ≤ given)
    (hmark : given < mark.number) :
    between [⟨cursor.node, cursor.label, .made mark⟩] cursor.node (.made mark) =
      {spoken cursor.label} * {[.node mark.node]} := by
  have h := @between_entry given cursor mark [] (.made mark) hcursor hmark (by simp) hmark
  rw [h, between_nil, mul_one]

/-- The paths through a part and over the link to a join behind it. -/
theorem between_arm {p : Part} {join : Mark} (hcursor : cursor.node.number ≤ given)
    (hjoin : given + p.size < join.number)
    (hp : between (p.links given cursor) cursor.node (p.exit given cursor).node *
        {spoken (p.exit given cursor).label} = {spoken cursor.label} * p.runs given) :
    between (p.links given cursor ++
        [⟨(p.exit given cursor).node, (p.exit given cursor).label, .made join⟩])
        cursor.node (.made join) =
      {spoken cursor.label} * p.runs given * {[.node join.node]} := by
  have hexit := number_exit_le p hcursor
  have hsplit := @between_append _
    [⟨(p.exit given cursor).node, (p.exit given cursor).label, .made join⟩] cursor.node
    (p.exit given cursor).node (.made join) (given + p.size)
    (fun _ => le_of_mem_links hcursor)
    (by simpa using hjoin) (by omega) hjoin
  rw [hsplit, between_single hexit hjoin, ← mul_assoc, hp]

/-- The paths through one part and the part behind it. -/
theorem between_andThen (first second : Part) (hcursor : cursor.node.number ≤ given) :
    between ((andThen first second).links given cursor) cursor.node
        ((andThen first second).exit given cursor).node =
      between (first.links given cursor) cursor.node (first.exit given cursor).node *
        between (second.links (given + first.size) (first.exit given cursor))
          (first.exit given cursor).node ((andThen first second).exit given cursor).node := by
  rw [links_andThen, exit]
  rcases second.exit_eq_or (given + first.size) (first.exit given cursor) with
    ⟨h, hsize⟩ | ⟨⟨mark, hmark, h⟩, hsize⟩
  -- The second part adds nothing, and its only path is the empty one.
  · rw [h, links_of_size_eq_zero hsize, List.append_nil, between_nil, mul_one]
  · refine @between_append _ _ cursor.node _ _ (given + first.size) ?_ ?_ ?_ ?_
    · exact fun _ => le_of_mem_links hcursor
    · intro link hlink
      obtain ⟨hsource, htarget⟩ := numbers_of_mem_links hlink
      exact ⟨hsource.imp_right And.left, htarget.1⟩
    · omega
    · rw [h]
      exact (number_of_mem_marks hmark).1

/-- The paths from the diamond of a conditional to its join take one of the two answers. -/
theorem between_fork (given : Nat) (label : Text) (yes no : Part) :
    between (yes.links (given + 1) (yesAt given label) ++
        (no.links (given + 1 + yes.size) (noAt given label) ++
          [yesLink given label yes no, noLink given label yes no]))
        (.made (forkMark given label)) (.made (joinMark given yes no)) =
      between (yes.links (given + 1) (yesAt given label) ++ [yesLink given label yes no])
          (.made (forkMark given label)) (.made (joinMark given yes no)) +
        between (no.links (given + 1 + yes.size) (noAt given label) ++
            [noLink given label yes no])
          (.made (forkMark given label)) (.made (joinMark given yes no)) := by
  rw [← @between_parallel _ _ (.made (forkMark given label)) (.made (joinMark given yes no))
    (fun v => given + 1 < v.number ∧ v.number ≤ given + 1 + yes.size)
    (fun v => given + 1 + yes.size < v.number ∧ v.number ≤ given + 1 + yes.size + no.size)]
  -- The two stages, each with its own link to the join.
  · apply between_congr
    intro link
    simp only [List.mem_append, List.mem_cons, List.not_mem_nil, or_false]
    tauto
  · intro link hlink
    rcases List.mem_append.mp hlink with h | h
    · obtain ⟨hsource, htarget⟩ := numbers_of_mem_links h
      exact ⟨hsource, Or.inl htarget⟩
    · obtain rfl := List.mem_singleton.mp h
      exact ⟨number_of_touches (yes.touches_exit _ _), Or.inr rfl⟩
  · intro link hlink
    rcases List.mem_append.mp hlink with h | h
    · obtain ⟨hsource, htarget⟩ := numbers_of_mem_links h
      exact ⟨hsource, Or.inl htarget⟩
    · obtain rfl := List.mem_singleton.mp h
      exact ⟨number_of_touches (no.touches_exit _ _), Or.inr rfl⟩
  · intro v hv
    omega
  · simp only [forkMark, Vertex.number_made]
    omega
  · simp only [joinMark, Vertex.number_made]
    omega
  · simp [forkMark, joinMark]

/-- The paths from the diamond of a loop to itself go through its body any number of times. -/
theorem between_rounds (given : Nat) (label : Text) (body : Part) :
    between (body.links (given + 1) (bodyAt given label) ++ [backLink given label body])
        (.made (loopMark given label)) (.made (loopMark given label)) =
      (between (body.links (given + 1) (bodyAt given label)) (.made (loopMark given label))
        (backLink given label body).source * {(backLink given label body).word})∗ := by
  have hback : ∀ link ∈ body.links (given + 1) (bodyAt given label),
      link.target ≠ (backLink given label body).target := by
    intro link hlink heq
    have hnumber := (numbers_of_mem_links hlink).2.1
    rw [heq] at hnumber
    exact Nat.lt_irrefl _ hnumber
  exact between_back hback

/-- The paths through a part, with the label that is left behind it, are its runs behind the label
of the cursor. -/
theorem between_exit (p : Part) (given : Nat) (cursor : Cursor Vertex)
    (hcursor : cursor.node.number ≤ given) :
    between (p.links given cursor) cursor.node (p.exit given cursor).node *
        {spoken (p.exit given cursor).label} =
      {spoken cursor.label} * p.runs given := by
  induction p generalizing given cursor with
  | nothing => rw [links_nothing, exit, between_nil, runs, one_mul, mul_one]
  | single role label =>
      have hmark : given < Mark.number ⟨role, given + 1, label⟩ := Nat.lt_succ_self given
      rw [links_single, exit, between_single hcursor hmark, runs, spoken_nil, singleton_nil,
        mul_one]
  | andThen first second ihFirst ihSecond =>
      have hexit := number_exit_le first hcursor
      calc between ((andThen first second).links given cursor) cursor.node
              ((andThen first second).exit given cursor).node *
            {spoken ((andThen first second).exit given cursor).label}
          = between (first.links given cursor) cursor.node (first.exit given cursor).node *
              ({spoken (first.exit given cursor).label} * second.runs (given + first.size)) := by
            rw [between_andThen first second hcursor, mul_assoc, exit, ihSecond _ _ hexit]
        _ = {spoken cursor.label} * (andThen first second).runs given := by
            rw [← mul_assoc, ihFirst _ _ hcursor, mul_assoc, runs]
  | fork label yes no ihYes ihNo =>
      have hyesCursor := number_yesAt_le given label
      have hnoCursor := number_noAt_le given label yes
      have hyesJoin : given + 1 + yes.size < (joinMark given yes no).number := by
        simp only [joinMark]
        omega
      have hnoJoin : given + 1 + yes.size + no.size < (joinMark given yes no).number :=
        Nat.lt_succ_self _
      have hjoin : given < (joinMark given yes no).number := by omega
      have hentry := @between_entry given cursor (forkMark given label) _
        (.made (joinMark given yes no)) hcursor (Nat.lt_succ_self given)
        (fun _ => @numbers_of_mem_fork given label yes no _) hjoin
      have hyes := between_arm hyesCursor hyesJoin (ihYes _ _ hyesCursor)
      have hno := between_arm hnoCursor hnoJoin (ihNo _ _ hnoCursor)
      rw [links_fork, exit, hentry, between_fork, spoken_nil, singleton_nil, mul_one]
      refine congrArg ({spoken cursor.label} * ·) ?_
      rw [runs, mul_assoc, add_mul]
      exact congrArg ({[.node (forkMark given label).node]} * ·) (congrArg₂ (· + ·) hyes hno)
  | repeated label body ihBody =>
      have hentry := @between_entry given cursor (loopMark given label) _
        (.made (loopMark given label)) hcursor (Nat.lt_succ_self given)
        (fun _ => @numbers_of_mem_repeated given label body _) (Nat.lt_succ_self given)
      -- One round is a run of the body and the way back to the diamond.
      have hround : between (body.links (given + 1) (bodyAt given label))
            (.made (loopMark given label)) (backLink given label body).source *
          {(backLink given label body).word} =
          body.runs (given + 1) * {[.node (loopMark given label).node]} := by
        rw [word_eq_mul, ← mul_assoc]
        refine congrArg (· * ({[.node (loopMark given label).node]} : Language Event)) ?_
        have h := ihBody _ _ (number_bodyAt_le given label)
        rw [bodyAt, spoken_nil, singleton_nil, one_mul] at h
        exact h
      have hrounds := between_rounds given label body
      rw [links_repeated, exit, hentry, spoken_nil, singleton_nil, mul_one, runs, ← hround]
      exact congrArg (fun rounds => {spoken cursor.label} *
        (({[.node (loopMark given label).node]} : Language Event) * rounds)) hrounds

/-- The paths through a program are the runs of its block. -/
theorem between_programExit (limit : Int) (statements : List Statement) :
    between (programLinks limit statements) (.made (startMark 0))
      (programExit limit statements 0) = (block limit statements).runs 1 := by
  have hpaths := (block limit statements).between_exit 1 (startAt 0) (Nat.le_refl 1)
  -- Behind the start node no label waits, so none is left behind the block either.
  have hlabel : ((block limit statements).exit 1 (startAt 0)).label = [] :=
    label_exit_eq_nil _ rfl
  rw [hlabel, spoken_nil, singleton_nil, mul_one] at hpaths
  rw [← one_mul ((block limit statements).runs 1)]
  exact hpaths

end Part

/-! ## Walks -/

/-- The readings of the walks between two nodes are the words on the paths between their marks. -/
theorem Drawn.readings_eq {g : Graph} {marks : List Mark} {links : List Link}
    (hg : Drawn g marks links) {u v : Mark} (hu : u ∈ marks) (hv : v ∈ marks) :
    g.readings u.node v.node = {[.node u.node]} * between links (.made u) (.made v) := by
  ext word
  rw [Language.mem_mul]
  constructor
  · rintro ⟨trail, hwalk, rfl⟩
    exact ⟨[.node u.node], rfl, reading trail, hg.path hwalk hu rfl hv rfl, rfl⟩
  · rintro ⟨_, rfl, path, hpath, rfl⟩
    obtain ⟨trail, hwalk, rfl⟩ := hg.exists_walk hpath ⟨u, hu, rfl⟩
    exact ⟨trail, hwalk, rfl⟩

/-- A program is drawn to its end, and the walks from the start node to the node that the drawing
arrives at are the runs of the program. -/
theorem readings_eq_runs (limit : Int) (direction : Text) (statements : List Statement) :
    ∃ id, ((Builder.new limit direction).build statements).2 = .ok id ∧
      ∃ exit ∈ (Graph.ofStatements limit direction statements).nodes, exit.id = .text id ∧
        (Graph.ofStatements limit direction statements).readings (Part.startMark 0).node exit =
          Part.programRuns limit statements := by
  have hg := drawn_ofStatements limit direction statements
  obtain ⟨exit, hexit, hvertex, hbuild⟩ := exists_programExit limit direction statements
  refine ⟨nodeId exit.role exit.number, hbuild, exit.node, hg.node_mem hexit, rfl, ?_⟩
  rw [hg.readings_eq List.mem_cons_self hexit, ← hvertex, Part.between_programExit,
    Part.programRuns]

end Flowchart
