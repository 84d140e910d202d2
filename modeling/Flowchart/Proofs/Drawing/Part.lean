import Flowchart.Drawing.Builder
import Flowchart.Proofs.Source.Reading

/-!
# Parts of a drawing

A drawing is put together from five kinds of parts: nothing, a single node, one part behind
another, a fork with a part for each answer, and a repeated part. `Part.block` says which part a
block of statements is drawn as; bodies are read on the way.

What a part adds is a list of steps, `Part.steps`. It depends only on how many identifiers have
been given out and on the cursor that the part is drawn from: the graph that it is drawn into is
not looked at. Nodes go by their role and number here. The node that a drawing begins behind may
be any node, so it has a constructor of its own, `Vertex.outer`.
-/

set_option autoImplicit false

namespace Flowchart

/-- Whether a node with this role stands for one statement. -/
def Role.isStep : Role → Bool
  | function => true
  | log => true
  | call => true
  | step => true
  | result => true
  | _ => false

/-! ## Vertices, links and steps -/

/-- A node that a drawing adds. -/
structure Mark where
  role : Role
  number : Nat
  label : Text
deriving DecidableEq, Repr

def Mark.node (mark : Mark) : Node := nodeOf mark.role mark.number mark.label

/-- A node as a drawing knows it: the one that the drawing begins behind, of which it knows the
identifier only, or one that it adds. -/
inductive Vertex where
  | outer (id : Text)
  | made (mark : Mark)
deriving DecidableEq, Repr

namespace Vertex

/-- The number of a vertex in the order of creation. The outer vertex is older than all others. -/
def number : Vertex → Nat
  | outer _ => 0
  | made mark => mark.number

def id : Vertex → Text
  | outer id => id
  | made mark => nodeId mark.role mark.number

@[simp] theorem number_made (mark : Mark) : (made mark).number = mark.number := rfl

@[simp] theorem number_outer (id : Text) : (outer id).number = 0 := rfl

@[simp] theorem id_made (mark : Mark) : (made mark).id = nodeId mark.role mark.number := rfl

@[simp] theorem id_outer (id : Text) : (outer id).id = id := rfl

end Vertex

/-- An edge between vertices. -/
structure Link where
  source : Vertex
  label : Text
  target : Vertex
deriving DecidableEq, Repr

def Link.edge (link : Link) : Edge :=
  ⟨.text link.source.id, .text link.target.id, .text link.label⟩

/-- One addition to a graph. -/
inductive Step where
  | node (mark : Mark)
  | edge (link : Link)
deriving DecidableEq, Repr

namespace Step

def marks (steps : List Step) : List Mark :=
  steps.filterMap fun
    | .node mark => some mark
    | .edge _ => none

def links (steps : List Step) : List Link :=
  steps.filterMap fun
    | .node _ => none
    | .edge link => some link

@[simp] theorem marks_nil : marks [] = [] := rfl

@[simp] theorem marks_node (mark : Mark) (steps : List Step) :
    marks (.node mark :: steps) = mark :: marks steps := rfl

@[simp] theorem marks_edge (link : Link) (steps : List Step) :
    marks (.edge link :: steps) = marks steps := rfl

@[simp] theorem marks_append (s t : List Step) : marks (s ++ t) = marks s ++ marks t :=
  List.filterMap_append

@[simp] theorem links_nil : links [] = [] := rfl

@[simp] theorem links_node (mark : Mark) (steps : List Step) :
    links (.node mark :: steps) = links steps := rfl

@[simp] theorem links_edge (link : Link) (steps : List Step) :
    links (.edge link :: steps) = link :: links steps := rfl

@[simp] theorem links_append (s t : List Step) : links (s ++ t) = links s ++ links t :=
  List.filterMap_append

end Step

/-! ## Parts -/

/-- A part of a drawing. -/
inductive Part where
  | nothing
  | single (role : Role) (label : Text)
  | andThen (first second : Part)
  /-- A diamond, a part for each answer, and the join behind them. -/
  | fork (label : Text) (yes no : Part)
  /-- A diamond, a part behind it, and the way back to the diamond. -/
  | repeated (label : Text) (body : Part)
deriving DecidableEq, Repr

namespace Part

/-- How many nodes a part adds. -/
def size : Part → Nat
  | nothing => 0
  | single _ _ => 1
  | andThen first second => first.size + second.size
  | fork _ yes no => yes.size + no.size + 2
  | repeated _ body => body.size + 1

/-- The diamond of a conditional that is drawn when `given` identifiers have been given out. -/
def forkMark (given : Nat) (label : Text) : Mark := ⟨.conditional, given + 1, label⟩

def loopMark (given : Nat) (label : Text) : Mark := ⟨.loop, given + 1, label⟩

/-- The join behind a fork with `yes` and `no`. -/
def joinMark (given : Nat) (yes no : Part) : Mark :=
  ⟨.join, given + 1 + yes.size + no.size + 1, "End if".toList⟩

/-- Where the drawing goes on behind a part. -/
def exit : Part → (given : Nat) → Cursor Vertex → Cursor Vertex
  | nothing, _, cursor => cursor
  | single role label, given, _ => ⟨.made ⟨role, given + 1, label⟩, []⟩
  | andThen first second, given, cursor =>
      second.exit (given + first.size) (first.exit given cursor)
  | fork _ yes no, given, _ => ⟨.made (joinMark given yes no), []⟩
  | repeated label _, given, _ => ⟨.made (loopMark given label), []⟩

/-- Where the answer yes of a fork goes on from. -/
def yesAt (given : Nat) (label : Text) : Cursor Vertex :=
  ⟨.made (forkMark given label), "Yes".toList⟩

/-- Where the answer no of a fork goes on from. -/
def noAt (given : Nat) (label : Text) : Cursor Vertex :=
  ⟨.made (forkMark given label), "No".toList⟩

/-- Where the body of a loop goes on from. -/
def bodyAt (given : Nat) (label : Text) : Cursor Vertex := ⟨.made (loopMark given label), []⟩

/-- A node and the edge to it from a cursor. -/
def entrySteps (mark : Mark) (cursor : Cursor Vertex) : List Step :=
  [.node mark, .edge ⟨cursor.node, cursor.label, .made mark⟩]

/-- What a part adds, in order. -/
def steps : Part → (given : Nat) → Cursor Vertex → List Step
  | nothing, _, _ => []
  | single role label, given, cursor => entrySteps ⟨role, given + 1, label⟩ cursor
  | andThen first second, given, cursor =>
      first.steps given cursor ++ second.steps (given + first.size) (first.exit given cursor)
  | fork label yes no, given, cursor =>
      let yesExit := yes.exit (given + 1) (yesAt given label)
      let noExit := no.exit (given + 1 + yes.size) (noAt given label)
      let join := joinMark given yes no
      entrySteps (forkMark given label) cursor ++
        (yes.steps (given + 1) (yesAt given label) ++
          (no.steps (given + 1 + yes.size) (noAt given label) ++
            [.node join, .edge ⟨yesExit.node, yesExit.label, .made join⟩,
              .edge ⟨noExit.node, noExit.label, .made join⟩]))
  | repeated label body, given, cursor =>
      let bodyExit := body.exit (given + 1) (bodyAt given label)
      entrySteps (loopMark given label) cursor ++
        (body.steps (given + 1) (bodyAt given label) ++
          [.edge ⟨bodyExit.node, bodyExit.label, .made (loopMark given label)⟩])

/-- The nodes that a part adds, in order. -/
def marks (p : Part) (given : Nat) (cursor : Cursor Vertex) : List Mark :=
  Step.marks (p.steps given cursor)

/-- The edges that a part adds, in order. -/
def links (p : Part) (given : Nat) (cursor : Cursor Vertex) : List Link :=
  Step.links (p.steps given cursor)

/-! ## The parts of a program -/

def sequence : List Part → Part
  | [] => nothing
  | p :: more => andThen p (sequence more)

/-- A plain statement; nothing for a blank one. -/
def plain (limit : Int) (t : Text) : Part :=
  if Text.isAllBlank t then nothing
  else single (Role.ofStepKind (stepKind t)) (stepLabel limit t)

/-- The answer no of a conditional: its further arms, each the answer no of the one before it,
and the lines after the last `else`. -/
def chain (body : List Text → Part) : List Arm → (elseBody : List Text) → Part
  | [], elseBody => body elseBody
  | a :: more, elseBody =>
      fork (conditionLabel a.condition) (body a.body) (chain body more elseBody)

/-- A statement, with the part that the lines of a body are drawn as given by `body`. -/
def statement (limit : Int) (body : List Text → Part) : Statement → Part
  | .function name _ => single .function ("Function: ".toList ++ name)
  | .conditional first more elseBody _ => chain body (first :: more) elseBody
  | .loop keyword condition lines _ => repeated (keyword ++ ' ' :: condition) (body lines)
  | .variable content _ => plain limit content
  | .result value _ => single .result ("Return: ".toList ++ value)
  | .plain content _ => plain limit content

/-- The lines of a body, with `room` levels of nesting left. -/
def lines (limit : Int) : (room : Nat) → List Text → Part
  | 0, body => sequence (body.map (plain limit))
  | room + 1, body => sequence ((Source.statements body).map (statement limit (lines limit room)))

/-- A block of statements that is in no body. -/
def block (limit : Int) (statements : List Statement) : Part :=
  sequence (statements.map (statement limit (lines limit maxNesting)))

def startMark (given : Nat) : Mark := ⟨.start, given + 1, "Start".toList⟩

/-- Where the block of a program is drawn from. -/
def startAt (given : Nat) : Cursor Vertex := ⟨.made (startMark given), []⟩

/-- What a program adds: its start node, and the block behind it. -/
def programSteps (limit : Int) (statements : List Statement) (given : Nat) : List Step :=
  .node (startMark given) :: (block limit statements).steps (given + 1) (startAt given)

def programExit (limit : Int) (statements : List Statement) (given : Nat) : Vertex :=
  ((block limit statements).exit (given + 1) (startAt given)).node

theorem plain_of_not_isAllBlank (limit : Int) {t : Text} (h : Text.isAllBlank t = false) :
    plain limit t = single (Role.ofStepKind (stepKind t)) (stepLabel limit t) := by
  rw [plain, h, if_neg Bool.false_ne_true]

theorem lines_nil (limit : Int) (room : Nat) : lines limit room [] = nothing := by
  cases room with
  | zero => rfl
  | succ room =>
      rw [lines, Source.statements_nil]
      rfl

/-- A line with a plain statement is drawn as one node at any depth. -/
theorem lines_plain (limit : Int) (room : Nat) {t : Text} (h : Text.isAllBlank t = false)
    (hkind : Source.lineKind t = .plain) :
    lines limit room [t] =
      sequence [single (Role.ofStepKind (stepKind t)) (stepLabel limit t)] := by
  cases room with
  | zero => rw [lines, List.map_singleton, plain_of_not_isAllBlank limit h]
  | succ room =>
      rw [lines, Source.statements_plain hkind, List.map_singleton, statement,
        plain_of_not_isAllBlank limit h]

/-! ## The roles of single nodes -/

/-- Only statements are drawn as single nodes: the start node, diamonds and joins belong to
programs, forks and loops. -/
def Proper : Part → Prop
  | nothing => True
  | single role _ => role.isStep = true
  | andThen first second => first.Proper ∧ second.Proper
  | fork _ yes no => yes.Proper ∧ no.Proper
  | repeated _ body => body.Proper

theorem proper_sequence {parts : List Part} (h : ∀ p ∈ parts, p.Proper) :
    (sequence parts).Proper := by
  induction parts with
  | nil => trivial
  | cons p parts ih =>
      exact ⟨h p List.mem_cons_self, ih fun q hq => h q (List.mem_cons_of_mem _ hq)⟩

theorem proper_plain (limit : Int) (t : Text) : (plain limit t).Proper := by
  unfold plain
  split
  · trivial
  · show (Role.ofStepKind (stepKind t)).isStep = true
    cases stepKind t <;> rfl

theorem proper_chain {body : List Text → Part} (hbody : ∀ ls, (body ls).Proper)
    (arms : List Arm) (elseBody : List Text) : (chain body arms elseBody).Proper := by
  induction arms with
  | nil => exact hbody elseBody
  | cons a more ih => exact ⟨hbody a.body, ih⟩

theorem proper_statement (limit : Int) {body : List Text → Part}
    (hbody : ∀ ls, (body ls).Proper) (s : Statement) : (statement limit body s).Proper := by
  cases s with
  | function name line => rfl
  | conditional first more elseBody line => exact proper_chain hbody (first :: more) elseBody
  | loop keyword condition ls line => exact hbody ls
  | «variable» content line => exact proper_plain limit content
  | result value line => rfl
  | plain content line => exact proper_plain limit content

theorem proper_lines (limit : Int) (room : Nat) (ls : List Text) :
    (lines limit room ls).Proper := by
  induction room generalizing ls with
  | zero =>
      apply proper_sequence
      intro p hp
      obtain ⟨t, _, rfl⟩ := List.mem_map.mp hp
      exact proper_plain limit t
  | succ room ih =>
      apply proper_sequence
      intro p hp
      obtain ⟨s, _, rfl⟩ := List.mem_map.mp hp
      exact proper_statement limit ih s

theorem proper_block (limit : Int) (statements : List Statement) :
    (block limit statements).Proper := by
  apply proper_sequence
  intro p hp
  obtain ⟨s, _, rfl⟩ := List.mem_map.mp hp
  exact proper_statement limit (proper_lines limit maxNesting) s

/-! ## What the parts of a part add -/

section Additions

variable (given : Nat) (cursor : Cursor Vertex) (label : Text) (p q : Part)

@[simp] theorem marks_nothing : nothing.marks given cursor = [] := rfl

@[simp] theorem marks_single (role : Role) :
    (single role label).marks given cursor = [⟨role, given + 1, label⟩] := rfl

@[simp] theorem marks_andThen :
    (andThen p q).marks given cursor =
      p.marks given cursor ++ q.marks (given + p.size) (p.exit given cursor) := by
  simp [marks, steps]

@[simp] theorem marks_fork :
    (fork label p q).marks given cursor =
      forkMark given label :: (p.marks (given + 1) (yesAt given label) ++
        (q.marks (given + 1 + p.size) (noAt given label) ++ [joinMark given p q])) := by
  simp [marks, steps, entrySteps]

@[simp] theorem marks_repeated :
    (repeated label p).marks given cursor =
      loopMark given label :: p.marks (given + 1) (bodyAt given label) := by
  simp [marks, steps, entrySteps]

/-- The link from where the answer yes arrives to the join. -/
def yesLink (given : Nat) (label : Text) (yes no : Part) : Link :=
  ⟨(yes.exit (given + 1) (yesAt given label)).node,
    (yes.exit (given + 1) (yesAt given label)).label, .made (joinMark given yes no)⟩

/-- The link from where the answer no arrives to the join. -/
def noLink (given : Nat) (label : Text) (yes no : Part) : Link :=
  ⟨(no.exit (given + 1 + yes.size) (noAt given label)).node,
    (no.exit (given + 1 + yes.size) (noAt given label)).label, .made (joinMark given yes no)⟩

/-- The link from where the body of a loop arrives to the diamond. -/
def backLink (given : Nat) (label : Text) (body : Part) : Link :=
  ⟨(body.exit (given + 1) (bodyAt given label)).node,
    (body.exit (given + 1) (bodyAt given label)).label, .made (loopMark given label)⟩

@[simp] theorem links_nothing : nothing.links given cursor = [] := rfl

@[simp] theorem links_single (role : Role) :
    (single role label).links given cursor =
      [⟨cursor.node, cursor.label, .made ⟨role, given + 1, label⟩⟩] := rfl

@[simp] theorem links_andThen :
    (andThen p q).links given cursor =
      p.links given cursor ++ q.links (given + p.size) (p.exit given cursor) := by
  simp [links, steps]

@[simp] theorem links_fork :
    (fork label p q).links given cursor =
      ⟨cursor.node, cursor.label, .made (forkMark given label)⟩ ::
        (p.links (given + 1) (yesAt given label) ++
          (q.links (given + 1 + p.size) (noAt given label) ++
            [yesLink given label p q, noLink given label p q])) := by
  simp [links, steps, entrySteps, yesLink, noLink]

@[simp] theorem links_repeated :
    (repeated label p).links given cursor =
      ⟨cursor.node, cursor.label, .made (loopMark given label)⟩ ::
        (p.links (given + 1) (bodyAt given label) ++ [backLink given label p]) := by
  simp [links, steps, entrySteps, backLink]

end Additions

/-! ## What a part touches -/

section Placement

variable {given : Nat} {cursor : Cursor Vertex} {v : Vertex}

/-- A part adds the vertex. -/
def Adds (p : Part) (given : Nat) (cursor : Cursor Vertex) (v : Vertex) : Prop :=
  ∃ mark ∈ p.marks given cursor, v = .made mark

/-- A vertex is the one that a part is drawn from, or one that the part adds. -/
def Touches (p : Part) (given : Nat) (cursor : Cursor Vertex) (v : Vertex) : Prop :=
  v = cursor.node ∨ p.Adds given cursor v

theorem adds_first {first : Part} (second : Part) (h : first.Adds given cursor v) :
    (andThen first second).Adds given cursor v := by
  obtain ⟨mark, hmark, hv⟩ := h
  refine ⟨mark, ?_, hv⟩
  rw [marks_andThen]
  exact List.mem_append_left _ hmark

theorem adds_second {first second : Part}
    (h : second.Adds (given + first.size) (first.exit given cursor) v) :
    (andThen first second).Adds given cursor v := by
  obtain ⟨mark, hmark, hv⟩ := h
  refine ⟨mark, ?_, hv⟩
  rw [marks_andThen]
  exact List.mem_append_right _ hmark

/-- What the answer yes of a fork touches, the fork adds: its diamond is where that answer is drawn
from. -/
theorem adds_yes {label : Text} {yes : Part} (no : Part)
    (h : yes.Touches (given + 1) (yesAt given label) v) :
    (fork label yes no).Adds given cursor v := by
  rcases h with rfl | ⟨mark, hmark, hv⟩
  · exact ⟨forkMark given label, by simp, rfl⟩
  · exact ⟨mark, by simp [hmark], hv⟩

theorem adds_no {label : Text} {yes no : Part}
    (h : no.Touches (given + 1 + yes.size) (noAt given label) v) :
    (fork label yes no).Adds given cursor v := by
  rcases h with rfl | ⟨mark, hmark, hv⟩
  · exact ⟨forkMark given label, by simp, rfl⟩
  · exact ⟨mark, by simp [hmark], hv⟩

theorem adds_body {label : Text} {body : Part}
    (h : body.Touches (given + 1) (bodyAt given label) v) :
    (repeated label body).Adds given cursor v := by
  rcases h with rfl | ⟨mark, hmark, hv⟩
  · exact ⟨loopMark given label, by simp, rfl⟩
  · exact ⟨mark, by simp [hmark], hv⟩

/-- A part leaves the cursor where it is, or at one of its own nodes with no label waiting. -/
theorem exit_eq_or (p : Part) (given : Nat) (cursor : Cursor Vertex) :
    (p.exit given cursor = cursor ∧ p.size = 0) ∨
      (∃ mark ∈ p.marks given cursor, p.exit given cursor = ⟨.made mark, []⟩) ∧ 0 < p.size := by
  induction p generalizing given cursor with
  | nothing => exact Or.inl ⟨rfl, rfl⟩
  | single role label => exact Or.inr ⟨⟨⟨role, given + 1, label⟩, by simp, rfl⟩, Nat.one_pos⟩
  | andThen first second ihFirst ihSecond =>
      -- Where the second part adds nothing, the exit is that of the first.
      simp only [exit, size, marks_andThen, List.mem_append]
      rcases ihSecond (given + first.size) (first.exit given cursor) with
        ⟨h2, hsize⟩ | ⟨⟨mark, hmark, h2⟩, hsize⟩
      · rw [h2]
        rcases ihFirst given cursor with ⟨h1, hfirst⟩ | ⟨⟨mark, hmark, h1⟩, hfirst⟩
        · exact Or.inl ⟨h1, by omega⟩
        · exact Or.inr ⟨⟨mark, Or.inl hmark, h1⟩, by omega⟩
      · exact Or.inr ⟨⟨mark, Or.inr hmark, h2⟩, by omega⟩
  | fork label yes no _ _ =>
      exact Or.inr ⟨⟨joinMark given yes no, by simp, rfl⟩, Nat.succ_pos _⟩
  | repeated label body _ =>
      exact Or.inr ⟨⟨loopMark given label, by simp, rfl⟩, Nat.succ_pos _⟩

theorem touches_exit (p : Part) (given : Nat) (cursor : Cursor Vertex) :
    p.Touches given cursor (p.exit given cursor).node := by
  rcases p.exit_eq_or given cursor with ⟨h, _⟩ | ⟨⟨mark, hmark, h⟩, _⟩
  · exact Or.inl (by rw [h])
  · exact Or.inr ⟨mark, hmark, by rw [h]⟩

/-- No label waits behind a part when none waited before it. -/
theorem label_exit_eq_nil (p : Part) (h : cursor.label = []) :
    (p.exit given cursor).label = [] := by
  rcases p.exit_eq_or given cursor with ⟨h1, _⟩ | ⟨⟨mark, _, h1⟩, _⟩
  · rw [h1, h]
  · rw [h1]

/-- A link of a part begins at a vertex that the part touches, and ends at one that it adds. -/
theorem ends_of_mem_links {p : Part} {link : Link} (h : link ∈ p.links given cursor) :
    p.Touches given cursor link.source ∧ p.Adds given cursor link.target := by
  induction p generalizing given cursor with
  | nothing => simp at h
  | single role label =>
      obtain rfl := List.mem_singleton.mp h
      exact ⟨Or.inl rfl, ⟨role, given + 1, label⟩, List.mem_singleton.mpr rfl, rfl⟩
  | andThen first second ihFirst ihSecond =>
      rw [links_andThen, List.mem_append] at h
      rcases h with h | h
      · obtain ⟨hsource, htarget⟩ := ihFirst h
        exact ⟨hsource.imp_right (adds_first second), adds_first second htarget⟩
      · obtain ⟨hsource, htarget⟩ := ihSecond h
        refine ⟨?_, adds_second htarget⟩
        rcases hsource with hsource | hsource
        -- The second part is drawn from where the first one arrives.
        · rw [hsource]
          exact (first.touches_exit given cursor).imp_right (adds_first second)
        · exact Or.inr (adds_second hsource)
  | fork label yes no ihYes ihNo =>
      simp only [links_fork, List.mem_cons, List.mem_append, List.not_mem_nil, or_false] at h
      rcases h with rfl | h | h | rfl | rfl
      · exact ⟨Or.inl rfl, forkMark given label, by simp, rfl⟩
      · obtain ⟨hsource, htarget⟩ := ihYes h
        exact ⟨Or.inr (adds_yes no hsource), adds_yes no (Or.inr htarget)⟩
      · obtain ⟨hsource, htarget⟩ := ihNo h
        exact ⟨Or.inr (adds_no hsource), adds_no (Or.inr htarget)⟩
      · refine ⟨Or.inr (adds_yes no ?_), joinMark given yes no, by simp, rfl⟩
        exact yes.touches_exit (given + 1) (yesAt given label)
      · refine ⟨Or.inr (adds_no ?_), joinMark given yes no, by simp, rfl⟩
        exact no.touches_exit (given + 1 + yes.size) (noAt given label)
  | repeated label body ihBody =>
      simp only [links_repeated, List.mem_cons, List.mem_append, List.not_mem_nil, or_false] at h
      rcases h with rfl | h | rfl
      · exact ⟨Or.inl rfl, loopMark given label, by simp, rfl⟩
      · obtain ⟨hsource, htarget⟩ := ihBody h
        exact ⟨Or.inr (adds_body hsource), adds_body (Or.inr htarget)⟩
      · refine ⟨Or.inr (adds_body ?_), loopMark given label, by simp, rfl⟩
        exact body.touches_exit (given + 1) (bodyAt given label)

/-! ## Numbers -/

/-- Every node of a part has a number of its own, and they come in order. -/
theorem marks_numbers (p : Part) (given : Nat) (cursor : Cursor Vertex) :
    (p.marks given cursor).map Mark.number = List.range' (given + 1) p.size := by
  induction p generalizing given cursor with
  | nothing => rfl
  | single role label => rfl
  | andThen first second ihFirst ihSecond =>
      rw [marks_andThen, List.map_append, ihFirst, ihSecond, size,
        show given + first.size + 1 = given + 1 + first.size by omega, List.range'_append_1]
  | fork label yes no ihYes ihNo =>
      -- The interval is cut where the diamond, the two answers and the join begin.
      rw [marks_fork, List.map_cons, List.map_append, List.map_append, ihYes, ihNo, size,
        show yes.size + no.size + 2 = 1 + (yes.size + (no.size + 1)) by omega,
        ← List.range'_append_1, ← List.range'_append_1, ← List.range'_append_1]
      simp only [List.range'_one, forkMark, joinMark, List.map_cons, List.map_nil]
      rw [show given + 1 + 1 + yes.size = given + 1 + yes.size + 1 by omega,
        show given + 1 + yes.size + 1 + no.size = given + 1 + yes.size + no.size + 1 by omega]
      rfl
  | repeated label body ihBody =>
      rw [marks_repeated, List.map_cons, ihBody, size, List.range'_succ]
      rfl

theorem length_marks (p : Part) (given : Nat) (cursor : Cursor Vertex) :
    (p.marks given cursor).length = p.size := by
  have := congrArg List.length (p.marks_numbers given cursor)
  simpa using this

/-- The nodes of a part take the next numbers. -/
theorem number_of_mem_marks {p : Part} {mark : Mark} (h : mark ∈ p.marks given cursor) :
    given < mark.number ∧ mark.number ≤ given + p.size := by
  have hmem : mark.number ∈ (p.marks given cursor).map Mark.number := List.mem_map_of_mem h
  rw [p.marks_numbers, List.mem_range'_1] at hmem
  omega

theorem number_of_adds {p : Part} (h : p.Adds given cursor v) :
    given < v.number ∧ v.number ≤ given + p.size := by
  obtain ⟨mark, hmark, rfl⟩ := h
  exact number_of_mem_marks hmark

theorem number_of_touches {p : Part} (h : p.Touches given cursor v) :
    v = cursor.node ∨ given < v.number ∧ v.number ≤ given + p.size :=
  h.imp_right number_of_adds

theorem le_of_touches {p : Part} (hcursor : cursor.node.number ≤ given)
    (h : p.Touches given cursor v) : v.number ≤ given + p.size := by
  rcases number_of_touches h with rfl | h
  · omega
  · exact h.2

theorem lt_of_touches {p : Part} {floor : Nat} (hcursor : floor < cursor.node.number)
    (hgiven : floor ≤ given) (h : p.Touches given cursor v) : floor < v.number := by
  rcases number_of_touches h with rfl | h
  · exact hcursor
  · omega

theorem number_exit_le (p : Part) (h : cursor.node.number ≤ given) :
    (p.exit given cursor).node.number ≤ given + p.size :=
  le_of_touches h (p.touches_exit given cursor)

/-- A link begins at the cursor or at a new node, and ends at a new node. -/
theorem numbers_of_mem_links {p : Part} {link : Link} (h : link ∈ p.links given cursor) :
    (link.source = cursor.node ∨
        given < link.source.number ∧ link.source.number ≤ given + p.size) ∧
      given < link.target.number ∧ link.target.number ≤ given + p.size := by
  obtain ⟨hsource, htarget⟩ := ends_of_mem_links h
  exact ⟨number_of_touches hsource, number_of_adds htarget⟩

/-- Links of a part are no younger than its last node. -/
theorem le_of_mem_links {p : Part} {link : Link} (hcursor : cursor.node.number ≤ given)
    (h : link ∈ p.links given cursor) :
    link.source.number ≤ given + p.size ∧ link.target.number ≤ given + p.size := by
  obtain ⟨hsource, htarget⟩ := ends_of_mem_links h
  exact ⟨le_of_touches hcursor hsource, (number_of_adds htarget).2⟩

/-- Links of a part are no older than the vertex that it is drawn from. -/
theorem lt_of_mem_links {p : Part} {link : Link} {floor : Nat}
    (hcursor : floor < cursor.node.number) (hgiven : floor ≤ given)
    (h : link ∈ p.links given cursor) :
    floor < link.source.number ∧ floor < link.target.number := by
  obtain ⟨hsource, htarget⟩ := ends_of_mem_links h
  exact ⟨lt_of_touches hcursor hgiven hsource, lt_of_touches hcursor hgiven (Or.inr htarget)⟩

theorem number_yesAt_le (given : Nat) (label : Text) :
    (yesAt given label).node.number ≤ given + 1 := Nat.le_refl _

theorem number_noAt_le (given : Nat) (label : Text) (yes : Part) :
    (noAt given label).node.number ≤ given + 1 + yes.size := Nat.le_add_right _ _

theorem number_bodyAt_le (given : Nat) (label : Text) :
    (bodyAt given label).node.number ≤ given + 1 := Nat.le_refl _

theorem yesLink_forward (given : Nat) (label : Text) (yes no : Part) :
    (yesLink given label yes no).source.number < (yesLink given label yes no).target.number := by
  have hexit := number_exit_le yes (number_yesAt_le given label)
  simp only [yesLink, joinMark, Vertex.number_made]
  omega

theorem noLink_forward (given : Nat) (label : Text) (yes no : Part) :
    (noLink given label yes no).source.number < (noLink given label yes no).target.number := by
  have hexit := number_exit_le no (number_noAt_le given label yes)
  simp only [noLink, joinMark, Vertex.number_made]
  omega

theorem backLink_back (given : Nat) (label : Text) (body : Part) :
    (backLink given label body).target.number ≤ (backLink given label body).source.number := by
  have hbody : given < (bodyAt given label).node.number := Nat.lt_succ_self given
  exact lt_of_touches hbody (Nat.le_succ given) (body.touches_exit _ _)

theorem links_of_size_eq_zero {p : Part} (h : p.size = 0) : p.links given cursor = [] := by
  cases hlinks : p.links given cursor with
  | nil => rfl
  | cons link links =>
      have hlink : link ∈ p.links given cursor := hlinks ▸ List.mem_cons_self
      have hnumbers := numbers_of_mem_links hlink
      omega

/-- Behind the link to its diamond, a fork has no link from or to an older node. -/
theorem numbers_of_mem_fork {label : Text} {yes no : Part} {link : Link}
    (h : link ∈ yes.links (given + 1) (yesAt given label) ++
      (no.links (given + 1 + yes.size) (noAt given label) ++
        [yesLink given label yes no, noLink given label yes no])) :
    given < link.source.number ∧ given < link.target.number := by
  have hyes : given < (yesAt given label).node.number := Nat.lt_succ_self given
  have hno : given < (noAt given label).node.number := Nat.lt_succ_self given
  have hjoin : given < (Vertex.made (joinMark given yes no)).number := by
    simp only [joinMark, Vertex.number_made]
    omega
  simp only [List.mem_append, List.mem_cons, List.not_mem_nil, or_false] at h
  rcases h with h | h | rfl | rfl
  · exact lt_of_mem_links hyes (Nat.le_succ given) h
  · exact lt_of_mem_links hno (by omega) h
  · exact ⟨lt_of_touches hyes (Nat.le_succ given) (yes.touches_exit _ _), hjoin⟩
  · exact ⟨lt_of_touches hno (by omega) (no.touches_exit _ _), hjoin⟩

/-- Behind the link to its diamond, a loop has no link from or to an older node. -/
theorem numbers_of_mem_repeated {label : Text} {body : Part} {link : Link}
    (h : link ∈ body.links (given + 1) (bodyAt given label) ++ [backLink given label body]) :
    given < link.source.number ∧ given < link.target.number := by
  have hbody : given < (bodyAt given label).node.number := Nat.lt_succ_self given
  simp only [List.mem_append, List.mem_cons, List.not_mem_nil, or_false] at h
  rcases h with h | rfl
  · exact lt_of_mem_links hbody (Nat.le_succ given) h
  · exact ⟨lt_of_touches hbody (Nat.le_succ given) (body.touches_exit _ _), hbody⟩

end Placement

end Part

end Flowchart
