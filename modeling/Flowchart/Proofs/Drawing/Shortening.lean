import Flowchart.Proofs.Drawing.Degrees

/-!
# What shortening touches

The limit on labels and the direction of a graph are for the eye. Main statement:
`shortening_ofStatements`, two graphs of one program have the same edges and the same nodes, and
only calls and other plain steps may differ in their labels, which shorten one text.

A program is drawn as two parts of one form, whatever the limits (`Part.SameForm`): the labels that
the limits touch stand at single nodes, and no part is chosen by looking at one. From parts of one
form come the same numbers, so the same identifiers, so the same edges.
-/

set_option autoImplicit false

namespace Flowchart

/-! ## Labels under two limits -/

/-- What two limits make of the label of a node with this role: a call or another step shortens one
text twice, and any other label is the same. -/
def Role.SameText (limit limit' : Int) : Role → (label label' : Text) → Prop
  | call, label, label' =>
      ∃ t, label = "Call: ".toList ++ shorten limit t ∧ label' = "Call: ".toList ++ shorten limit' t
  | step, label, label' =>
      ∃ t, label = "Execute: ".toList ++ shorten limit t ∧
        label' = "Execute: ".toList ++ shorten limit' t
  | _, label, label' => label = label'

/-- Two marks are of one form when only the limits tell their labels apart. -/
structure Mark.SameForm (limit limit' : Int) (mark mark' : Mark) : Prop where
  role : mark.role = mark'.role
  number : mark.number = mark'.number
  label : mark.role.SameText limit limit' mark.label mark'.label

/-- Two nodes differ at most in what the limits make of their labels. -/
structure Node.SameForm (limit limit' : Int) (node node' : Node) : Prop where
  id : node.id = node'.id
  shape : node.shape = node'.shape
  call : node.Plays .call → ∃ t, node.label = .text ("Call: ".toList ++ shorten limit t) ∧
    node'.label = .text ("Call: ".toList ++ shorten limit' t)
  step : node.Plays .step → ∃ t, node.label = .text ("Execute: ".toList ++ shorten limit t) ∧
    node'.label = .text ("Execute: ".toList ++ shorten limit' t)
  other : ¬ node.Plays .call → ¬ node.Plays .step → node.label = node'.label

variable {limit limit' : Int}

/-- Only calls and other steps have labels that a limit touches. -/
theorem Role.SameText.eq {role : Role} {label label' : Text}
    (h : role.SameText limit limit' label label') (hcall : role ≠ .call) (hstep : role ≠ .step) :
    label = label' := by
  cases role with
  | call => exact absurd rfl hcall
  | step => exact absurd rfl hstep
  | start | function | conditional | loop | log | result | join => exact h

theorem Mark.SameForm.node {mark mark' : Mark} (h : mark.SameForm limit limit' mark') :
    mark.node.SameForm limit limit' mark'.node := by
  obtain ⟨role, number, label⟩ := mark
  obtain ⟨role', number', label'⟩ := mark'
  obtain ⟨hrole, hnumber, hlabel⟩ := h
  simp only at hrole hnumber hlabel
  subst hrole hnumber
  constructor
  case id => rfl
  case shape => rfl
  case call =>
    intro hcall
    obtain rfl : role = .call := Mark.plays_iff.mp hcall
    obtain ⟨t, rfl, rfl⟩ := hlabel
    exact ⟨t, rfl, rfl⟩
  case step =>
    intro hstep
    obtain rfl : role = .step := Mark.plays_iff.mp hstep
    obtain ⟨t, rfl, rfl⟩ := hlabel
    exact ⟨t, rfl, rfl⟩
  case other =>
    intro hcall hstep
    rw [Mark.plays_iff] at hcall hstep
    show Value.text label = .text label'
    rw [hlabel.eq hcall hstep]

namespace Part

/-! ## Parts of one form -/

/-- Two parts are of one form when only the limits tell the labels of their single nodes apart. -/
inductive SameForm (limit limit' : Int) : Part → Part → Prop where
  | nothing : SameForm limit limit' nothing nothing
  | single {role : Role} {label label' : Text} (h : role.SameText limit limit' label label') :
      SameForm limit limit' (single role label) (single role label')
  | andThen {p p' q q' : Part} (first : SameForm limit limit' p p')
      (second : SameForm limit limit' q q') : SameForm limit limit' (andThen p q) (andThen p' q')
  | fork (label : Text) {p p' q q' : Part} (yes : SameForm limit limit' p p')
      (no : SameForm limit limit' q q') : SameForm limit limit' (fork label p q) (fork label p' q')
  | repeated (label : Text) {p p' : Part} (body : SameForm limit limit' p p') :
      SameForm limit limit' (repeated label p) (repeated label p')

theorem sameForm_sequence {α : Type} {part part' : α → Part}
    (h : ∀ x, SameForm limit limit' (part x) (part' x)) (xs : List α) :
    SameForm limit limit' (sequence (xs.map part)) (sequence (xs.map part')) := by
  induction xs with
  | nil => exact .nothing
  | cons x xs ih => exact .andThen (h x) ih

/-- A plain statement is told to be a log message, a call or another step before its text is
shortened. -/
theorem sameForm_plain (t : Text) : SameForm limit limit' (plain limit t) (plain limit' t) := by
  unfold plain
  split
  · exact .nothing
  · refine .single ?_
    unfold stepLabel
    cases stepKind t with
    | log => rfl
    | call => exact ⟨t, rfl, rfl⟩
    | other => exact ⟨t, rfl, rfl⟩

section Bodies

variable {body body' : List Text → Part}

theorem sameForm_chain (hbody : ∀ ls, SameForm limit limit' (body ls) (body' ls))
    (arms : List Arm) (elseBody : List Text) :
    SameForm limit limit' (chain body arms elseBody) (chain body' arms elseBody) := by
  induction arms with
  | nil => exact hbody elseBody
  | cons a more ih => exact .fork _ (hbody a.body) ih

theorem sameForm_statement (hbody : ∀ ls, SameForm limit limit' (body ls) (body' ls))
    (s : Statement) :
    SameForm limit limit' (statement limit body s) (statement limit' body' s) := by
  cases s with
  | function name line => exact .single rfl
  | conditional first more elseBody line => exact sameForm_chain hbody (first :: more) elseBody
  | loop keyword condition ls line => exact .repeated _ (hbody ls)
  | «variable» content line => exact sameForm_plain content
  | result value line => exact .single rfl
  | plain content line => exact sameForm_plain content

end Bodies

theorem sameForm_lines (room : Nat) (ls : List Text) :
    SameForm limit limit' (lines limit room ls) (lines limit' room ls) := by
  induction room generalizing ls with
  | zero => exact sameForm_sequence sameForm_plain ls
  | succ room ih => exact sameForm_sequence (sameForm_statement ih) (Source.statements ls)

theorem sameForm_block (statements : List Statement) :
    SameForm limit limit' (block limit statements) (block limit' statements) :=
  sameForm_sequence (sameForm_statement (sameForm_lines maxNesting)) statements

/-! ## What parts of one form add -/

namespace SameForm

variable {p p' : Part}

theorem size_eq (h : SameForm limit limit' p p') : p.size = p'.size := by
  induction h with
  | nothing => rfl
  | single h => rfl
  | andThen _ _ ihFirst ihSecond => rw [size, size, ihFirst, ihSecond]
  | fork label _ _ ihYes ihNo => rw [size, size, ihYes, ihNo]
  | repeated label _ ihBody => rw [size, size, ihBody]

/-- The joins of two forks of one form are the same. -/
theorem joinMark_eq {yes yes' no no' : Part} (hyes : SameForm limit limit' yes yes')
    (hno : SameForm limit limit' no no') (given : Nat) :
    joinMark given yes no = joinMark given yes' no' := by
  rw [joinMark, joinMark, hyes.size_eq, hno.size_eq]

/-- From places of one name, parts of one form lead to places of one name. -/
theorem named_exit (h : SameForm limit limit' p p') (given : Nat) {cursor cursor' : Cursor Vertex}
    (hcursor : cursor.named = cursor'.named) :
    (p.exit given cursor).named = (p'.exit given cursor').named := by
  induction h generalizing given cursor cursor' with
  | nothing => exact hcursor
  | single h => rfl
  | andThen first _ ihFirst ihSecond =>
      rw [exit, exit, first.size_eq]
      exact ihSecond _ (ihFirst given hcursor)
  | fork label yes no _ _ => rw [exit, exit, yes.joinMark_eq no]
  | repeated label _ _ => rfl

theorem marks (h : SameForm limit limit' p p') (given : Nat) (cursor cursor' : Cursor Vertex) :
    List.Forall₂ (Mark.SameForm limit limit') (p.marks given cursor) (p'.marks given cursor') := by
  induction h generalizing given cursor cursor' with
  | nothing => exact .nil
  | single h => exact .cons ⟨rfl, rfl, h⟩ .nil
  | andThen first _ ihFirst ihSecond =>
      rw [marks_andThen, marks_andThen, first.size_eq]
      exact List.rel_append (ihFirst given cursor cursor') (ihSecond _ _ _)
  | fork label yes no ihYes ihNo =>
      rw [marks_fork, marks_fork, yes.size_eq, yes.joinMark_eq no]
      refine .cons ⟨rfl, rfl, rfl⟩ (List.rel_append (ihYes _ _ _) ?_)
      exact List.rel_append (ihNo _ _ _) (.cons ⟨rfl, rfl, rfl⟩ .nil)
  | repeated label _ ihBody =>
      rw [marks_repeated, marks_repeated]
      exact .cons ⟨rfl, rfl, rfl⟩ (ihBody _ _ _)

/-- A link goes by the names of its ends, whatever their labels are. -/
theorem edge_eq {cursor cursor' : Cursor Vertex} {target target' : Vertex}
    (hcursor : cursor.named = cursor'.named) (htarget : target.id = target'.id) :
    Link.edge ⟨cursor.node, cursor.label, target⟩ =
      Link.edge ⟨cursor'.node, cursor'.label, target'⟩ := by
  obtain ⟨hid, hlabel⟩ := Cursor.mk.inj hcursor
  rw [Link.edge, Link.edge, hid, hlabel, htarget]

theorem edges (h : SameForm limit limit' p p') (given : Nat) {cursor cursor' : Cursor Vertex}
    (hcursor : cursor.named = cursor'.named) :
    (p.links given cursor).map Link.edge = (p'.links given cursor').map Link.edge := by
  induction h generalizing given cursor cursor' with
  | nothing => rfl
  | single h =>
      rw [links_single, links_single, List.map_singleton, List.map_singleton]
      exact congrArg (fun edge => [edge]) (edge_eq hcursor rfl)
  | andThen first _ ihFirst ihSecond =>
      rw [links_andThen, links_andThen, List.map_append, List.map_append, ihFirst given hcursor,
        first.size_eq, ihSecond _ (first.named_exit given hcursor)]
  | @fork label q q' r r' yes no ihYes ihNo =>
      have hyes := yes.named_exit (given + 1) (Eq.refl (yesAt given label).named)
      have hno := no.named_exit (given + 1 + q.size) (Eq.refl (noAt given label).named)
      simp only [links_fork, List.map_cons, List.map_append, List.map_nil, yesLink, noLink,
        ← yes.size_eq, ← yes.joinMark_eq no]
      rw [edge_eq hcursor rfl, edge_eq hyes rfl, edge_eq hno rfl, ihYes _ rfl, ihNo _ rfl]
  | repeated label body ihBody =>
      have hbody := body.named_exit (given + 1) (Eq.refl (bodyAt given label).named)
      simp only [links_repeated, List.map_cons, List.map_append, List.map_nil, backLink]
      rw [edge_eq hcursor rfl, edge_eq hbody rfl, ihBody _ rfl]

end SameForm

end Part

/-! ## Two graphs of a program -/

/-- Two graphs of a program have the same edges, and nodes with the same identifiers and shapes in
the same order. Their labels are the same too, except that calls and other steps shorten one text
each to the one limit and to the other. -/
theorem shortening_ofStatements (limit limit' : Int) (direction direction' : Text)
    (statements : List Statement) :
    (Graph.ofStatements limit direction statements).edges =
        (Graph.ofStatements limit' direction' statements).edges ∧
      List.Forall₂ (Node.SameForm limit limit')
        (Graph.ofStatements limit direction statements).nodes
        (Graph.ofStatements limit' direction' statements).nodes := by
  have hform := @Part.sameForm_block limit limit' statements
  constructor
  · rw [(drawn_ofStatements limit direction statements).edges,
      (drawn_ofStatements limit' direction' statements).edges]
    exact hform.edges 1 rfl
  · rw [(drawn_ofStatements limit direction statements).nodes,
      (drawn_ofStatements limit' direction' statements).nodes, List.forall₂_map_left_iff,
      List.forall₂_map_right_iff]
    have hstart : Mark.SameForm limit limit' (Part.startMark 0) (Part.startMark 0) :=
      ⟨rfl, rfl, rfl⟩
    exact .cons hstart.node ((hform.marks 1 _ _).imp fun _ _ h => h.node)

end Flowchart
