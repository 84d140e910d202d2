import Flowchart.Proofs.Drawing.Degrees
import Flowchart.Proofs.Drawing.Entry

/-!
# The labels of branches

Only the edges out of the diamonds of conditionals carry labels, and each diamond has one edge for
each answer. Main statement: `branches_ofStatements`, which also says where these edges lead: to
the first node that is drawn for the answer, which for the answer no is the diamond of the next arm
if there is one, and to the join of the arm when nothing is drawn for the answer.

`drawnArms` lists the arms of the conditionals of a program with the nodes that are drawn for them:
for a body, those of the part that its lines draw (`lines_draws`). For parts, the links that carry
labels are the answers of the branchings of the part, and the link that enters the part when a label
waits at the cursor (`Part.labelled_links_perm`). A label that waits is used up by the first node of
a part, and a part without nodes leaves it to the link behind the part (`Part.labelled_through`).
-/

set_option autoImplicit false

open scoped List

namespace Flowchart

/-! ## Branchings -/

/-- A diamond, the nodes that are drawn for each of its answers, and the join behind them. -/
structure Branching where
  diamond : Mark
  yes : List Mark
  no : List Mark
  join : Mark
deriving DecidableEq, Repr

namespace Branching

/-- All nodes that are drawn for a branching, in order. -/
def marks (br : Branching) : List Mark := br.diamond :: (br.yes ++ (br.no ++ [br.join]))

/-- Where the answer yes leads. -/
def yesLink (br : Branching) : Link :=
  ⟨.made br.diamond, "Yes".toList, .made (br.yes.headD br.join)⟩

/-- Where the answer no leads. -/
def noLink (br : Branching) : Link :=
  ⟨.made br.diamond, "No".toList, .made (br.no.headD br.join)⟩

def answers (br : Branching) : List Link := [br.yesLink, br.noLink]

theorem answers_eq (br : Branching) : br.answers = [br.yesLink] ++ [br.noLink] := rfl

end Branching

/-- The links that carry a label. -/
def labelled (links : List Link) : List Link := links.filter fun link => link.label ≠ []

theorem labelled_append (links more : List Link) :
    labelled (links ++ more) = labelled links ++ labelled more := List.filter_append ..

theorem labelled_cons (link : Link) (links : List Link) :
    labelled (link :: links) = labelled [link] ++ labelled links :=
  labelled_append [link] links

theorem labelled_of_label_eq_nil {link : Link} (h : link.label = []) : labelled [link] = [] :=
  List.filter_cons_of_neg (by simp [h])

namespace Part

variable {given : Nat} {cursor : Cursor Vertex}

/-- The branching at the diamond of a fork. -/
def branching (given : Nat) (label : Text) (yes no : Part) : Branching :=
  ⟨forkMark given label, yes.marks (given + 1) (yesAt given label),
    no.marks (given + 1 + yes.size) (noAt given label), joinMark given yes no⟩

/-- The branchings of a part, in the order of their diamonds. -/
def branchings : Part → (given : Nat) → List Branching
  | nothing, _ => []
  | single _ _, _ => []
  | andThen first second, given => first.branchings given ++ second.branchings (given + first.size)
  | fork label yes no, given =>
      branching given label yes no ::
        (yes.branchings (given + 1) ++ no.branchings (given + 1 + yes.size))
  | repeated _ body, given => body.branchings (given + 1)

/-- The diamonds of conditionals are those of the branchings. -/
theorem filter_marks_conditional {p : Part} (hp : p.Proper) (given : Nat)
    (cursor : Cursor Vertex) :
    (p.marks given cursor).filter (fun mark => mark.role = .conditional) =
      (p.branchings given).map Branching.diamond := by
  induction p generalizing given cursor with
  | nothing => rfl
  | single role label =>
      have hrole : role ≠ .conditional := by
        rintro rfl
        cases hp
      rw [marks_single]
      exact List.filter_cons_of_neg (by simpa using hrole)
  | andThen first second ihFirst ihSecond =>
      rw [marks_andThen, List.filter_append, ihFirst hp.1, ihSecond hp.2, branchings,
        List.map_append]
  | fork label yes no ihYes ihNo =>
      have hjoin : [joinMark given yes no].filter (fun mark => mark.role = .conditional) = [] := rfl
      rw [marks_fork, List.filter_cons_of_pos (by rfl), List.filter_append, List.filter_append,
        ihYes hp.1, ihNo hp.2, hjoin, List.append_nil, branchings, List.map_cons, List.map_append]
      rfl
  | repeated label body ihBody =>
      rw [marks_repeated, List.filter_cons_of_neg (by simp [loopMark]), ihBody hp, branchings]

/-- The nodes of a branching stand together, and in the order in which they are drawn. -/
theorem marks_infix_of_mem_branchings {p : Part} {br : Branching} (h : br ∈ p.branchings given) :
    br.marks <:+: p.marks given cursor := by
  induction p generalizing given cursor with
  | nothing => cases h
  | single role label => cases h
  | andThen first second ihFirst ihSecond =>
      rw [marks_andThen]
      rcases List.mem_append.mp h with h | h
      · exact List.infix_append_of_infix_left (ihFirst h)
      · exact List.infix_append_of_infix_right (ihSecond h)
  | fork label yes no ihYes ihNo =>
      rw [marks_fork]
      rcases List.mem_cons.mp h with rfl | h
      · exact List.infix_refl _
      · rcases List.mem_append.mp h with h | h
        · exact List.infix_cons (List.infix_append_of_infix_left (ihYes h))
        · exact List.infix_cons (List.infix_append_of_infix_right
            (List.infix_append_of_infix_left (ihNo h)))
  | repeated label body ihBody =>
      rw [marks_repeated]
      exact List.infix_cons (ihBody h)

theorem branchings_of_marks_eq_nil {p : Part} (h : p.marks given cursor = []) :
    p.branchings given = [] := by
  cases hbranchings : p.branchings given with
  | nil => rfl
  | cons br more =>
      have hbr : br.marks <:+: p.marks given cursor :=
        marks_infix_of_mem_branchings (hbranchings ▸ List.mem_cons_self)
      rw [h] at hbr
      exact absurd (List.infix_nil.mp hbr) (List.cons_ne_nil _ _)

/-- Where no label waits, the link into a part has none. -/
theorem labelled_entry (h : cursor.label = []) (marks : List Mark) :
    labelled (entry cursor marks) = [] := by
  cases marks with
  | nil => rfl
  | cons mark marks => exact labelled_of_label_eq_nil h

/-- A label that waits before a part goes to the first node of the part, and to the vertex behind
the part when there is none. -/
theorem labelled_through (p : Part) (given : Nat) (cursor : Cursor Vertex) (behind : Mark) :
    labelled (entry cursor (p.marks given cursor)) ++
        labelled [⟨(p.exit given cursor).node, (p.exit given cursor).label, .made behind⟩] =
      labelled [⟨cursor.node, cursor.label, .made ((p.marks given cursor).headD behind)⟩] := by
  cases hmarks : p.marks given cursor with
  | nil =>
      rw [exit_of_marks_eq_nil hmarks]
      rfl
  | cons mark marks =>
      obtain ⟨last, _, hexit⟩ := exit_of_marks_ne_nil (hmarks ▸ List.cons_ne_nil mark marks)
      rw [hexit, labelled_of_label_eq_nil rfl, List.append_nil]
      rfl

/-- What carries a label in a part: the answers of its branchings, and the link into it when a
label waits there. -/
theorem labelled_links_perm (p : Part) (given : Nat) (cursor : Cursor Vertex) :
    labelled (p.links given cursor) ~
      labelled (entry cursor (p.marks given cursor)) ++
        (p.branchings given).flatMap Branching.answers := by
  induction p generalizing given cursor with
  | nothing => exact List.Perm.refl _
  | single role label =>
      rw [branchings, List.flatMap_nil, List.append_nil]
      rfl
  | andThen first second ihFirst ihSecond =>
      rw [links_andThen, labelled_append, marks_andThen, branchings, List.flatMap_append]
      cases hmarks : first.marks given cursor with
      | nil =>
          have hsecond := ihSecond (given + first.size) (first.exit given cursor)
          rw [links_of_marks_eq_nil hmarks, branchings_of_marks_eq_nil hmarks]
          rw [exit_of_marks_eq_nil hmarks] at hsecond ⊢
          exact hsecond
      | cons mark marks =>
          have hfirst := ihFirst given cursor
          have hsecond := ihSecond (given + first.size) (first.exit given cursor)
          obtain ⟨last, _, hexit⟩ := exit_of_marks_ne_nil (hmarks ▸ List.cons_ne_nil mark marks)
          -- No label waits between the two parts.
          rw [labelled_entry (by rw [hexit]), List.nil_append] at hsecond
          rw [hmarks] at hfirst
          rw [List.cons_append, entry_cons, ← entry_cons cursor mark marks, ← List.append_assoc]
          exact hfirst.append hsecond
  | fork label yes no ihYes ihNo =>
      -- Each label goes either to the first node behind it or to the link to the join.
      have hyesLink : labelled (entry (yesAt given label) (yes.marks (given + 1) _)) ++
          labelled [yesLink given label yes no] = [(branching given label yes no).yesLink] :=
        labelled_through yes (given + 1) (yesAt given label) (joinMark given yes no)
      have hnoLink : labelled (entry (noAt given label) (no.marks (given + 1 + yes.size) _)) ++
          labelled [noLink given label yes no] = [(branching given label yes no).noLink] :=
        labelled_through no (given + 1 + yes.size) (noAt given label) (joinMark given yes no)
      rw [links_fork, labelled_cons, labelled_append, labelled_append,
        labelled_cons (yesLink given label yes no), marks_fork, entry_cons, branchings,
        List.flatMap_cons, List.flatMap_append, Branching.answers_eq, ← hyesLink, ← hnoLink]
      refine List.perm_iff_count.mpr fun link => ?_
      have hyes := (ihYes (given + 1) (yesAt given label)).count_eq link
      have hno := (ihNo (given + 1 + yes.size) (noAt given label)).count_eq link
      rw [List.count_append] at hyes hno
      simp only [List.count_append, hyes, hno]
      omega
  | repeated label body ihBody =>
      have hback : labelled [backLink given label body] = [] :=
        labelled_of_label_eq_nil (body.label_exit_eq_nil rfl)
      have hbody := ihBody (given + 1) (bodyAt given label)
      rw [labelled_entry rfl, List.nil_append] at hbody
      rw [links_repeated, labelled_cons, labelled_append, hback, List.append_nil, marks_repeated,
        entry_cons, branchings]
      exact hbody.append_left _

/-! ## The arms of a program -/

/-- The diamond of the first of some arms, of which it is drawn first. -/
def firstDiamond (given : Nat) : List Arm → Option Mark
  | [] => none
  | a :: _ => some (forkMark given (conditionLabel a.condition))

/-- A chain of arms begins with the diamond of the first one. -/
theorem head?_marks_chain (part : List Text → Part) (given : Nat) (cursor : Cursor Vertex)
    (arms : List Arm) (elseBody : List Text) {mark : Mark} (h : mark ∈ firstDiamond given arms) :
    ((chain part arms elseBody).marks given cursor).head? = some mark := by
  cases arms with
  | nil => cases h
  | cons a more =>
      obtain rfl := Option.mem_some_iff.mp h
      rw [chain, marks_fork, List.head?_cons]

end Part

/-- What is drawn for an arm of a conditional: the answer yes is its body, and the answer no is all
that comes behind it in the chain. -/
structure DrawnArm extends Branching where
  /-- The diamond of the next arm; none for the last arm, whose answer no is the body of `else`. -/
  next : Option Mark
  head?_no : ∀ mark ∈ next, no.head? = some mark

namespace DrawnArm

/-- Where the answer no of an arm leads. -/
def noTarget (a : DrawnArm) : Mark :=
  match a.next with
  | some diamond => diamond
  | none => a.no.headD a.join

theorem noTarget_eq (a : DrawnArm) : a.noTarget = a.no.headD a.join := by
  unfold noTarget
  cases hnext : a.next with
  | none => rfl
  | some diamond => rw [List.headD_eq_head?_getD, a.head?_no diamond hnext, Option.getD_some]

end DrawnArm

section Arms

variable (part : List Text → Part) (inner : List Text → Nat → List DrawnArm)

/-- The arms of a chain and those inside of them, when `given` identifiers have been given out.
Bodies are drawn as `part` says, and hold the arms that `inner` lists. -/
def armsOfChain : List Arm → (elseBody : List Text) → (given : Nat) → List DrawnArm
  | [], elseBody, given => inner elseBody given
  | a :: more, elseBody, given =>
      { Part.branching given (conditionLabel a.condition) (part a.body)
          (Part.chain part more elseBody) with
        next := Part.firstDiamond (given + 1 + (part a.body).size) more
        head?_no := fun _ h => Part.head?_marks_chain part _ _ more elseBody h } ::
      (inner a.body (given + 1) ++
        armsOfChain more elseBody (given + 1 + (part a.body).size))

def armsOfStatement : Statement → (given : Nat) → List DrawnArm
  | .conditional first more elseBody _, given =>
      armsOfChain part inner (first :: more) elseBody given
  | .loop _ _ lines _, given => inner lines (given + 1)
  | _, _ => []

def armsOfBlock (limit : Int) : List Statement → (given : Nat) → List DrawnArm
  | [], _ => []
  | s :: more, given =>
      armsOfStatement part inner s given ++
        armsOfBlock limit more (given + (Part.statement limit part s).size)

/-- The arms in the lines of a body, with `room` levels of nesting left. -/
def armsOfLines (limit : Int) : (room : Nat) → List Text → (given : Nat) → List DrawnArm
  | 0, _, _ => []
  | room + 1, lines, given =>
      armsOfBlock (Part.lines limit room) (armsOfLines limit room) limit
        (Source.statements lines) given

/-- The arms of a program, in the order in which they are drawn. Its start node has the first
number. -/
def drawnArms (limit : Int) (statements : List Statement) : List DrawnArm :=
  armsOfBlock (Part.lines limit maxNesting) (armsOfLines limit maxNesting) limit statements 1

end Arms

namespace Part

theorem branchings_plain (limit : Int) (t : Text) (given : Nat) :
    (plain limit t).branchings given = [] := by
  unfold plain
  split
  · rfl
  · rfl

section Listed

variable {part : List Text → Part} {inner : List Text → Nat → List DrawnArm}
  (hinner : ∀ ls given, (inner ls given).map DrawnArm.toBranching = (part ls).branchings given)

include hinner

theorem map_armsOfChain (arms : List Arm) (elseBody : List Text) (given : Nat) :
    (armsOfChain part inner arms elseBody given).map DrawnArm.toBranching =
      (chain part arms elseBody).branchings given := by
  induction arms generalizing given with
  | nil => exact hinner elseBody given
  | cons a more ih =>
      rw [armsOfChain, List.map_cons, List.map_append, hinner, ih, chain, branchings]

theorem map_armsOfStatement (limit : Int) (s : Statement) (given : Nat) :
    (armsOfStatement part inner s given).map DrawnArm.toBranching =
      (statement limit part s).branchings given := by
  cases s with
  | function name line => rfl
  | conditional first more elseBody line =>
      exact map_armsOfChain hinner (first :: more) elseBody given
  | loop keyword condition ls line => exact hinner ls (given + 1)
  | «variable» content line => exact (branchings_plain limit content given).symm
  | result value line => rfl
  | plain content line => exact (branchings_plain limit content given).symm

theorem map_armsOfBlock (limit : Int) (statements : List Statement) (given : Nat) :
    (armsOfBlock part inner limit statements given).map DrawnArm.toBranching =
      (sequence (statements.map (statement limit part))).branchings given := by
  induction statements generalizing given with
  | nil => rfl
  | cons s more ih =>
      rw [armsOfBlock, List.map_append, map_armsOfStatement hinner limit, ih, List.map_cons,
        sequence, branchings]

end Listed

theorem map_armsOfLines (limit : Int) (room : Nat) (ls : List Text) (given : Nat) :
    (armsOfLines limit room ls given).map DrawnArm.toBranching =
      (lines limit room ls).branchings given := by
  induction room generalizing ls given with
  | zero =>
      -- Below the bound on nesting every line is a plain step.
      rw [armsOfLines, List.map_nil, lines]
      induction ls generalizing given with
      | nil => rfl
      | cons t ls ih =>
          rw [List.map_cons, sequence, branchings, branchings_plain, List.nil_append]
          exact ih _
  | succ room ih => exact map_armsOfBlock ih limit (Source.statements ls) given

/-- The arms of a program are the branchings of its part. -/
theorem map_drawnArms (limit : Int) (statements : List Statement) :
    (drawnArms limit statements).map DrawnArm.toBranching =
      (block limit statements).branchings 1 :=
  map_armsOfBlock (map_armsOfLines limit maxNesting) limit statements 1

end Part

/-! ## The graph of a program -/

/-- How the labels of a graph lie in which the arms are drawn. -/
structure Graph.Branches (g : Graph) (arms : List DrawnArm) : Prop where
  /-- The diamonds of the arms are all diamonds of conditionals, each once. -/
  diamonds : (g.nodes.filter fun node => node.Plays .conditional) =
    arms.map fun a => a.diamond.node
  /-- The nodes for an arm stand together: its diamond, its body, what is behind it, its join. -/
  placed : ∀ a ∈ arms, a.marks.map Mark.node <:+: g.nodes
  yes : ∀ a ∈ arms,
    (g.edges.filter fun edge =>
        edge.source = a.diamond.node.id ∧ edge.label = .text "Yes".toList) =
      [⟨a.diamond.node.id, (a.yes.headD a.join).node.id, .text "Yes".toList⟩]
  no : ∀ a ∈ arms,
    (g.edges.filter fun edge =>
        edge.source = a.diamond.node.id ∧ edge.label = .text "No".toList) =
      [⟨a.diamond.node.id, a.noTarget.node.id, .text "No".toList⟩]
  labelled : ∀ edge ∈ g.edges, edge.label ≠ .text [] →
    ∃ a ∈ arms, edge.source = a.diamond.node.id

namespace Branching

theorem source_of_mem_answers {br : Branching} {link : Link} (h : link ∈ br.answers) :
    link.source = .made br.diamond := by
  rw [answers, List.mem_pair] at h
  rcases h with rfl | rfl
  · rfl
  · rfl

theorem label_ne_nil_of_mem_answers {br : Branching} {link : Link} (h : link ∈ br.answers) :
    link.label ≠ [] := by
  rw [answers, List.mem_pair] at h
  rcases h with rfl | rfl
  · exact List.cons_ne_nil 'Y' _
  · exact List.cons_ne_nil 'N' _

/-- The two answers have different labels. -/
theorem filter_answers_self {br : Branching} {link : Link} (h : link ∈ br.answers) :
    (br.answers.filter fun other =>
      other.source = .made br.diamond ∧ other.label = link.label) = [link] := by
  rw [answers, List.mem_pair] at h
  rcases h with rfl | rfl
  · simp [answers, yesLink, noLink]
  · simp [answers, yesLink, noLink]

theorem filter_answers_other {br : Branching} {diamond : Mark} (h : br.diamond ≠ diamond)
    (label : Text) :
    (br.answers.filter fun other => other.source = .made diamond ∧ other.label = label) = [] := by
  refine List.filter_eq_nil_iff.mpr fun other hother => ?_
  rw [decide_eq_true_eq, source_of_mem_answers hother]
  exact fun hsource => h (Vertex.made.inj hsource.1)

/-- Of all answers, only one leaves a diamond with its label. -/
theorem filter_answers {all : List Branching} (hdistinct : (all.map diamond).Nodup)
    {br : Branching} (hbr : br ∈ all) {link : Link} (hlink : link ∈ br.answers) :
    ((all.flatMap answers).filter fun other =>
      other.source = .made br.diamond ∧ other.label = link.label) = [link] := by
  induction all with
  | nil => cases hbr
  | cons first more ih =>
      rw [List.map_cons, List.nodup_cons] at hdistinct
      rw [List.flatMap_cons, List.filter_append]
      rcases List.mem_cons.mp hbr with rfl | hbr
      · have hmore : (more.flatMap answers).filter (fun other =>
            other.source = .made br.diamond ∧ other.label = link.label) = [] := by
          rw [List.filter_flatMap]
          refine List.flatMap_eq_nil_iff.mpr fun other hother => ?_
          refine filter_answers_other (fun heq => hdistinct.1 ?_) link.label
          exact heq ▸ List.mem_map_of_mem hother
        rw [filter_answers_self hlink, hmore, List.append_nil]
      · have hne : first.diamond ≠ br.diamond := fun heq =>
          hdistinct.1 (heq ▸ List.mem_map_of_mem hbr)
        rw [filter_answers_other hne, List.nil_append]
        exact ih hdistinct.2 hbr

end Branching

namespace Drawn

variable {g : Graph} {marks : List Mark} {links : List Link}

/-- The edges out of the node of a mark with a label are the links out of the mark with it. -/
theorem filter_edges (hg : Drawn g marks links) {mark : Mark} (h : mark ∈ marks) (label : Text) :
    (g.edges.filter fun edge => edge.source = mark.node.id ∧ edge.label = .text label) =
      (links.filter fun link => link.source = .made mark ∧ link.label = label).map Link.edge := by
  rw [hg.edges, List.filter_map]
  refine congrArg (List.map Link.edge) (List.filter_congr fun link hlink => ?_)
  have hlabel : link.edge.label = .text label ↔ link.label = label :=
    ⟨Value.text.inj, congrArg Value.text⟩
  exact decide_eq_decide.mpr (and_congr (hg.source_eq_iff hlink h) hlabel)

/-- The nodes that play a role are those of the marks with it. -/
theorem filter_plays (hg : Drawn g marks links) (role : Role) :
    (g.nodes.filter fun node => node.Plays role) =
      (marks.filter fun mark => mark.role = role).map Mark.node := by
  rw [hg.nodes, List.filter_map]
  refine congrArg (List.map Mark.node) (List.filter_congr fun mark _ => ?_)
  exact decide_eq_decide.mpr Mark.plays_iff

end Drawn

namespace Part

variable (limit : Int) (statements : List Statement)

theorem filter_programMarks_conditional :
    (programMarks limit statements).filter (fun mark => mark.role = .conditional) =
      ((block limit statements).branchings 1).map Branching.diamond := by
  rw [programMarks, List.filter_cons_of_neg (by decide)]
  exact filter_marks_conditional (proper_block limit statements) 1 (startAt 0)

/-- No label waits behind the start node. -/
theorem labelled_programLinks_perm :
    labelled (programLinks limit statements) ~
      ((block limit statements).branchings 1).flatMap Branching.answers := by
  have hperm := (block limit statements).labelled_links_perm 1 (startAt 0)
  rwa [labelled_entry rfl, List.nil_append] at hperm

theorem diamond_mem_programMarks {br : Branching}
    (h : br ∈ (block limit statements).branchings 1) :
    br.diamond ∈ programMarks limit statements := by
  have hdiamond : br.diamond ∈
      (programMarks limit statements).filter fun mark => mark.role = .conditional := by
    rw [filter_programMarks_conditional]
    exact List.mem_map_of_mem h
  exact List.mem_of_mem_filter hdiamond

end Part

/-- Out of the diamond of a branching, the graph of a program has one edge for each answer. -/
theorem filter_edges_ofStatements (limit : Int) (direction : Text) (statements : List Statement)
    {br : Branching} (hbr : br ∈ (Part.block limit statements).branchings 1) {link : Link}
    (hlink : link ∈ br.answers) :
    ((Graph.ofStatements limit direction statements).edges.filter fun edge =>
        edge.source = br.diamond.node.id ∧ edge.label = .text link.label) = [link.edge] := by
  have hg := drawn_ofStatements limit direction statements
  have hdistinct : (((Part.block limit statements).branchings 1).map Branching.diamond).Nodup := by
    rw [← Part.filter_programMarks_conditional]
    exact hg.nodup.filter _
  have hperm := (Part.labelled_programLinks_perm limit statements).filter
    fun other => other.source = .made br.diamond ∧ other.label = link.label
  rw [Branching.filter_answers hdistinct hbr hlink, labelled, List.filter_filter] at hperm
  -- An edge with this label has a label, so nothing is lost by looking at labelled links only.
  have hlinks : ((Part.programLinks limit statements).filter fun other =>
      other.source = .made br.diamond ∧ other.label = link.label) = [link] := by
    rw [← List.perm_singleton.mp hperm]
    refine List.filter_congr fun other _ => ?_
    rw [← Bool.decide_and, decide_eq_decide]
    exact ⟨fun h => ⟨h, h.2 ▸ Branching.label_ne_nil_of_mem_answers hlink⟩, And.left⟩
  rw [hg.filter_edges (Part.diamond_mem_programMarks limit statements hbr), hlinks]
  rfl

/-- Every diamond of a conditional has one edge labelled yes, to the first node of the body of its
arm or to its join, and one labelled no, to the next diamond of its chain, to the first node of the
body of `else` or to its join. No other edge has a label. -/
theorem branches_ofStatements (limit : Int) (direction : Text) (statements : List Statement) :
    (Graph.ofStatements limit direction statements).Branches (drawnArms limit statements) := by
  have hg := drawn_ofStatements limit direction statements
  have harms := Part.map_drawnArms limit statements
  have hmem : ∀ a ∈ drawnArms limit statements,
      a.toBranching ∈ (Part.block limit statements).branchings 1 := fun a ha =>
    harms ▸ List.mem_map_of_mem ha
  constructor
  case diamonds =>
    rw [hg.filter_plays, Part.filter_programMarks_conditional, ← harms, List.map_map, List.map_map]
    rfl
  case placed =>
    intro a ha
    rw [hg.nodes]
    refine List.IsInfix.map _ (List.infix_cons ?_)
    exact Part.marks_infix_of_mem_branchings (hmem a ha)
  case yes =>
    intro a ha
    exact filter_edges_ofStatements limit direction statements (hmem a ha)
      List.mem_cons_self
  case no =>
    intro a ha
    rw [a.noTarget_eq]
    exact filter_edges_ofStatements limit direction statements (hmem a ha)
      (List.mem_cons_of_mem _ List.mem_cons_self)
  case labelled =>
    intro edge hedge hlabel
    rw [hg.edges] at hedge
    obtain ⟨link, hlink, rfl⟩ := List.mem_map.mp hedge
    have hlabelled : link ∈ labelled (Part.programLinks limit statements) :=
      List.mem_filter.mpr ⟨hlink, decide_eq_true fun h => hlabel (congrArg Value.text h)⟩
    obtain ⟨br, hbr, hanswer⟩ := List.mem_flatMap.mp
      ((Part.labelled_programLinks_perm limit statements).mem_iff.mp hlabelled)
    rw [← harms] at hbr
    obtain ⟨a, ha, rfl⟩ := List.mem_map.mp hbr
    refine ⟨a, ha, ?_⟩
    rw [Link.edge, Branching.source_of_mem_answers hanswer]
    rfl

end Flowchart
