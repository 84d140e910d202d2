import Flowchart.Proofs.Drawing.Program

/-!
# The graph of a program is reducible

The graph of a program has one entry and one exit, and goes back only to the diamonds of loops,
each of which dominates its loop (`reducible_ofStatements`).

Each fact is proved of the links of a part, by induction on the part. Nodes are numbered in the
order of creation, so a part occupies an interval of numbers. The nodes of a loop are such an
interval too, and it is entered at the diamond only (`Part.exists_loop_interval`): that is why a
walk to the source of a way back passes the diamond.
-/

set_option autoImplicit false

namespace Flowchart

/-! ## Reducible graphs -/

namespace Graph

/-- The place of an identifier in the order in which nodes are created. -/
def place (g : Graph) (id : Value) : Nat := g.nodes.findIdx fun node => node.id = id

/-- Whether an edge leads to a node that was created no later than the node it leaves. -/
def isBack (g : Graph) (edge : Edge) : Bool := decide (g.place edge.target ≤ g.place edge.source)

end Graph

/-- A node is the diamond of a loop. -/
def Node.IsLoop (node : Node) : Prop := ∃ number label, node = nodeOf .loop number label

/-- A graph has a single entry and a single exit, and goes back only to diamonds of loops, each of
them from one edge and from inside of its loop. -/
structure Graph.Reducible (g : Graph) (start exit : Node) : Prop where
  /-- Every node is reachable from the start node. -/
  reachable : ∀ node ∈ g.nodes, ∃ trail, g.Walk start trail node
  exits : ∀ node ∈ g.nodes, ∃ trail, g.Walk node trail exit
  /-- An edge goes forward, or it leads to the diamond of a loop. -/
  forward_or_loop : ∀ edge ∈ g.edges, g.place edge.source < g.place edge.target ∨
    g.isBack edge ∧ ∃ node ∈ g.nodes, node.id = edge.target ∧ node.IsLoop
  /-- One edge leads back to each diamond of a loop. -/
  one_back : ∀ node ∈ g.nodes, node.IsLoop →
    (g.edges.filter fun edge => g.isBack edge ∧ edge.target = node.id).length = 1
  /-- A walk to an edge that leads back passes the diamond that the edge leads to. -/
  dominated : ∀ edge ∈ g.edges, g.isBack edge → ∀ source trail, source.id = edge.source →
    g.Walk start trail source → ∃ node ∈ start :: trail.map Prod.snd, node.id = edge.target

/-! ## Reaching nodes along links -/

/-- Some path leads from one vertex to another. -/
def Reaches (links : List Link) (u v : Vertex) : Prop := ∃ word, Path links u word v

namespace Reaches

variable {links more : List Link} {u v w : Vertex}

theorem refl (links : List Link) (v : Vertex) : Reaches links v v := ⟨[], Path.stop v⟩

theorem trans (h : Reaches links u v) (h' : Reaches links v w) : Reaches links u w := by
  obtain ⟨word, h⟩ := h
  obtain ⟨word', h'⟩ := h'
  exact ⟨word ++ word', h.append h'⟩

theorem mono (hsub : ∀ link ∈ links, link ∈ more) (h : Reaches links u v) : Reaches more u v := by
  obtain ⟨word, h⟩ := h
  exact ⟨word, h.mono hsub⟩

theorem of_link {link : Link} (h : link ∈ links) : Reaches links link.source link.target :=
  ⟨link.word, Path.single h⟩

end Reaches

namespace Part

variable {given : Nat} {cursor : Cursor Vertex}

/-! What the links of a smaller part reach, the links of the part around it reach. -/

section Around

variable {label : Text} {first second yes no body : Part} {u v : Vertex}

theorem reaches_of_first (h : Reaches (first.links given cursor) u v) :
    Reaches ((andThen first second).links given cursor) u v := by
  rw [links_andThen]
  exact h.mono fun _ => List.mem_append_left _

theorem reaches_of_second
    (h : Reaches (second.links (given + first.size) (first.exit given cursor)) u v) :
    Reaches ((andThen first second).links given cursor) u v := by
  rw [links_andThen]
  exact h.mono fun _ => List.mem_append_right _

theorem reaches_of_yes (h : Reaches (yes.links (given + 1) (yesAt given label)) u v) :
    Reaches ((fork label yes no).links given cursor) u v := by
  refine h.mono fun link hlink => ?_
  simp [hlink]

theorem reaches_of_no (h : Reaches (no.links (given + 1 + yes.size) (noAt given label)) u v) :
    Reaches ((fork label yes no).links given cursor) u v := by
  refine h.mono fun link hlink => ?_
  simp [hlink]

theorem reaches_of_body (h : Reaches (body.links (given + 1) (bodyAt given label)) u v) :
    Reaches ((repeated label body).links given cursor) u v := by
  refine h.mono fun link hlink => ?_
  simp [hlink]

theorem reaches_forkMark :
    Reaches ((fork label yes no).links given cursor) cursor.node (.made (forkMark given label)) :=
  @Reaches.of_link _ ⟨cursor.node, cursor.label, .made (forkMark given label)⟩ (by simp)

theorem reaches_loopMark :
    Reaches ((repeated label body).links given cursor) cursor.node (.made (loopMark given label)) :=
  @Reaches.of_link _ ⟨cursor.node, cursor.label, .made (loopMark given label)⟩ (by simp)

/-- Where the answer yes arrives, the join is next. -/
theorem yes_reaches_join :
    Reaches ((fork label yes no).links given cursor)
      (yes.exit (given + 1) (yesAt given label)).node (.made (joinMark given yes no)) :=
  @Reaches.of_link _ (yesLink given label yes no) (by simp)

theorem no_reaches_join :
    Reaches ((fork label yes no).links given cursor)
      (no.exit (given + 1 + yes.size) (noAt given label)).node (.made (joinMark given yes no)) :=
  @Reaches.of_link _ (noLink given label yes no) (by simp)

theorem body_reaches_loopMark :
    Reaches ((repeated label body).links given cursor)
      (body.exit (given + 1) (bodyAt given label)).node (.made (loopMark given label)) :=
  @Reaches.of_link _ (backLink given label body) (by simp)

end Around

/-- What reaches every node of a part reaches where the part goes on. -/
theorem reaches_exit {p : Part} {links : List Link}
    (h : ∀ mark ∈ p.marks given cursor, Reaches links cursor.node (.made mark)) :
    Reaches links cursor.node (p.exit given cursor).node := by
  rcases p.touches_exit given cursor with hexit | ⟨mark, hmark, hexit⟩
  · rw [hexit]
    exact Reaches.refl _ _
  · rw [hexit]
    exact h mark hmark

/-- Every node of a part is reachable from the cursor. -/
theorem reaches_mark (p : Part) (given : Nat) (cursor : Cursor Vertex) :
    ∀ mark ∈ p.marks given cursor, Reaches (p.links given cursor) cursor.node (.made mark) := by
  induction p generalizing given cursor with
  | nothing => simp
  | single role label =>
      intro mark hmark
      obtain rfl := List.mem_singleton.mp hmark
      exact Reaches.of_link (List.mem_singleton.mpr rfl)
  | andThen first second ihFirst ihSecond =>
      intro mark hmark
      rw [marks_andThen, List.mem_append] at hmark
      rcases hmark with h | h
      · exact reaches_of_first (ihFirst given cursor mark h)
      · have hfirst := reaches_exit (ihFirst given cursor)
        have hsecond := ihSecond (given + first.size) (first.exit given cursor) mark h
        exact (reaches_of_first hfirst).trans (reaches_of_second hsecond)
  | fork label yes no ihYes ihNo =>
      intro mark hmark
      simp only [marks_fork, List.mem_cons, List.mem_append, List.not_mem_nil, or_false] at hmark
      -- Both answers are drawn from the diamond, and the join is behind either.
      rcases hmark with rfl | h | h | rfl
      · exact reaches_forkMark
      · exact reaches_forkMark.trans (reaches_of_yes (ihYes _ (yesAt given label) mark h))
      · exact reaches_forkMark.trans (reaches_of_no (ihNo _ (noAt given label) mark h))
      · have hyes := reaches_exit (ihYes (given + 1) (yesAt given label))
        exact reaches_forkMark.trans ((reaches_of_yes hyes).trans yes_reaches_join)
  | repeated label body ihBody =>
      intro mark hmark
      rw [marks_repeated, List.mem_cons] at hmark
      rcases hmark with rfl | h
      · exact reaches_loopMark
      · exact reaches_loopMark.trans (reaches_of_body (ihBody _ (bodyAt given label) mark h))

/-- From every node of a part, where the part goes on is reachable. -/
theorem mark_reaches (p : Part) (given : Nat) (cursor : Cursor Vertex) :
    ∀ mark ∈ p.marks given cursor,
      Reaches (p.links given cursor) (.made mark) (p.exit given cursor).node := by
  induction p generalizing given cursor with
  | nothing => simp
  | single role label =>
      intro mark hmark
      obtain rfl := List.mem_singleton.mp hmark
      exact Reaches.refl _ _
  | andThen first second ihFirst ihSecond =>
      intro mark hmark
      rw [marks_andThen, List.mem_append] at hmark
      rw [exit]
      rcases hmark with h | h
      · have hfirst := ihFirst given cursor mark h
        have hsecond := reaches_exit
          (reaches_mark second (given + first.size) (first.exit given cursor))
        exact (reaches_of_first hfirst).trans (reaches_of_second hsecond)
      · exact reaches_of_second (ihSecond (given + first.size) (first.exit given cursor) mark h)
  | fork label yes no ihYes ihNo =>
      intro mark hmark
      simp only [marks_fork, List.mem_cons, List.mem_append, List.not_mem_nil, or_false] at hmark
      -- Each answer goes on to the join, and the diamond goes on to the answer yes.
      rcases hmark with rfl | h | h | rfl
      · have hyes := reaches_exit (reaches_mark yes (given + 1) (yesAt given label))
        exact (reaches_of_yes hyes).trans yes_reaches_join
      · exact (reaches_of_yes (ihYes _ _ mark h)).trans yes_reaches_join
      · exact (reaches_of_no (ihNo _ _ mark h)).trans no_reaches_join
      · exact Reaches.refl _ _
  | repeated label body ihBody =>
      intro mark hmark
      rw [marks_repeated, List.mem_cons] at hmark
      rcases hmark with rfl | h
      · exact Reaches.refl _ _
      · exact (reaches_of_body (ihBody _ _ mark h)).trans body_reaches_loopMark

/-! ## Links that lead back -/

/-- A link leads forward, or to the diamond of a loop among the nodes. -/
def ForwardOrLoop (marks : List Mark) (link : Link) : Prop :=
  link.source.number < link.target.number ∨
    ∃ mark ∈ marks, mark.role = .loop ∧ link.target = .made mark

theorem ForwardOrLoop.mono {marks more : List Mark} {link : Link}
    (h : ForwardOrLoop marks link) (hsub : ∀ mark ∈ marks, mark ∈ more) :
    ForwardOrLoop more link := by
  rcases h with h | ⟨mark, hmark, hloop⟩
  · exact Or.inl h
  · exact Or.inr ⟨mark, hsub mark hmark, hloop⟩

/-- The links of a part lead forward, or to the diamonds of its loops. -/
theorem forward_or_loop (p : Part) (given : Nat) (cursor : Cursor Vertex)
    (hcursor : cursor.node.number ≤ given) :
    ∀ link ∈ p.links given cursor, ForwardOrLoop (p.marks given cursor) link := by
  induction p generalizing given cursor with
  | nothing => simp
  | single role label =>
      intro link hlink
      obtain rfl := List.mem_singleton.mp hlink
      exact Or.inl (Nat.lt_succ_of_le hcursor)
  | andThen first second ihFirst ihSecond =>
      intro link hlink
      rw [links_andThen, List.mem_append] at hlink
      rw [marks_andThen]
      rcases hlink with h | h
      · exact (ihFirst _ _ hcursor link h).mono fun _ => List.mem_append_left _
      · have hsecond := ihSecond _ _ (number_exit_le first hcursor) link h
        exact hsecond.mono fun _ => List.mem_append_right _
  | fork label yes no ihYes ihNo =>
      intro link hlink
      simp only [links_fork, List.mem_cons, List.mem_append, List.not_mem_nil, or_false] at hlink
      rcases hlink with rfl | h | h | rfl | rfl
      · exact Or.inl (Nat.lt_succ_of_le hcursor)
      · refine (ihYes _ _ (number_yesAt_le given label) link h).mono fun mark hmark => ?_
        simp [hmark]
      · refine (ihNo _ _ (number_noAt_le given label yes) link h).mono fun mark hmark => ?_
        simp [hmark]
      · exact Or.inl (yesLink_forward given label yes no)
      · exact Or.inl (noLink_forward given label yes no)
  | repeated label body ihBody =>
      intro link hlink
      simp only [links_repeated, List.mem_cons, List.mem_append, List.not_mem_nil,
        or_false] at hlink
      rcases hlink with rfl | h | rfl
      · exact Or.inl (Nat.lt_succ_of_le hcursor)
      · have hbody := ihBody _ _ (number_bodyAt_le given label) link h
        refine hbody.mono fun mark hmark => ?_
        simp [hmark]
      · exact Or.inr ⟨loopMark given label, by simp, rfl, rfl⟩

/-- The links among `links` that lead back to a vertex. -/
def backTo (links : List Link) (v : Vertex) : List Link :=
  links.filter fun link => link.target.number ≤ link.source.number ∧ link.target = v

theorem backTo_append (links more : List Link) (v : Vertex) :
    backTo (links ++ more) v = backTo links v ++ backTo more v :=
  List.filter_append links more

theorem backTo_eq_nil {links : List Link} {v : Vertex}
    (h : ∀ link ∈ links,
      link.source.number < link.target.number ∨ link.target.number ≠ v.number) :
    backTo links v = [] := by
  rw [backTo, List.filter_eq_nil_iff]
  intro link hlink hback
  obtain ⟨hle, rfl⟩ := of_decide_eq_true hback
  rcases h link hlink with h | h
  · omega
  · exact h rfl

def Regular : Part → Prop
  | nothing => True
  | single role _ => role ≠ .loop
  | andThen first second => first.Regular ∧ second.Regular
  | fork _ yes no => yes.Regular ∧ no.Regular
  | repeated _ body => body.Regular

theorem Proper.regular {p : Part} (hp : p.Proper) : p.Regular := by
  induction p with
  | nothing => trivial
  | single role label =>
      show role ≠ .loop
      rintro rfl
      cases hp
  | andThen first second ihFirst ihSecond => exact ⟨ihFirst hp.1, ihSecond hp.2⟩
  | fork label yes no ihYes ihNo => exact ⟨ihYes hp.1, ihNo hp.2⟩
  | repeated label body ihBody => exact ihBody hp

/-- In a program only loops have diamonds of loops. -/
theorem regular_block (limit : Int) (statements : List Statement) :
    (block limit statements).Regular :=
  (proper_block limit statements).regular

/-- A part has no link back to a vertex that is not its own. -/
theorem backTo_links_eq_nil {p : Part} {v : Vertex}
    (hv : v.number ≤ given ∨ given + p.size < v.number) :
    backTo (p.links given cursor) v = [] := by
  apply backTo_eq_nil
  intro link hlink
  have hnumbers := (numbers_of_mem_links hlink).2
  exact Or.inr (by omega)

/-- The link to a new node leads forward. -/
theorem backTo_entry_eq_nil {mark : Mark} (hcursor : cursor.node.number ≤ given)
    (hmark : given < mark.number) (v : Vertex) :
    backTo [⟨cursor.node, cursor.label, .made mark⟩] v = [] := by
  apply backTo_eq_nil
  intro link hlink
  obtain rfl := List.mem_singleton.mp hlink
  exact Or.inl (Nat.lt_of_le_of_lt hcursor hmark)

/-- The links to a join lead forward. -/
theorem backTo_joins_eq_nil (given : Nat) (label : Text) (yes no : Part) (v : Vertex) :
    backTo [yesLink given label yes no, noLink given label yes no] v = [] := by
  apply backTo_eq_nil
  intro link hlink
  simp only [List.mem_cons, List.not_mem_nil, or_false] at hlink
  rcases hlink with rfl | rfl
  · exact Or.inl (yesLink_forward given label yes no)
  · exact Or.inl (noLink_forward given label yes no)

/-- The way back of a loop does not end behind its diamond. -/
theorem backTo_backLink_eq_nil {label : Text} {body : Part} {v : Vertex}
    (hv : given + 1 < v.number) : backTo [backLink given label body] v = [] := by
  apply backTo_eq_nil
  intro link hlink
  obtain rfl := List.mem_singleton.mp hlink
  exact Or.inr (Nat.ne_of_lt hv)

/-- The way back of a loop is the only link back to its diamond: no link of the body ends there. -/
theorem backTo_loopMark (given : Nat) (label : Text) (body : Part) :
    backTo (body.links (given + 1) (bodyAt given label) ++ [backLink given label body])
      (.made (loopMark given label)) = [backLink given label body] := by
  have hbody : backTo (body.links (given + 1) (bodyAt given label))
      (.made (loopMark given label)) = [] :=
    backTo_links_eq_nil (Or.inl (Nat.le_refl _))
  rw [backTo_append, hbody, List.nil_append, backTo, List.filter_cons_of_pos]
  · rfl
  · exact decide_eq_true ⟨backLink_back given label body, rfl⟩

/-- One link leads back to each diamond of a loop.

The induction is on the part. The diamond lies in the interval of one part, and no other has a
link to it; the link into a loop does lead to its diamond, but from an older node. -/
theorem length_backTo (p : Part) (hp : p.Regular) (given : Nat) (cursor : Cursor Vertex)
    (hcursor : cursor.node.number ≤ given) :
    ∀ mark ∈ p.marks given cursor, mark.role = .loop →
      (backTo (p.links given cursor) (.made mark)).length = 1 := by
  induction p generalizing given cursor with
  | nothing => simp
  | single role label =>
      intro mark hmark hloop
      obtain rfl := List.mem_singleton.mp hmark
      exact absurd hloop hp
  | andThen first second ihFirst ihSecond =>
      intro mark hmark hloop
      rw [marks_andThen, List.mem_append] at hmark
      rw [links_andThen, backTo_append, List.length_append]
      rcases hmark with h | h
      · have hnumber := number_of_mem_marks h
        rw [ihFirst hp.1 _ _ hcursor mark h hloop, backTo_links_eq_nil (Or.inl hnumber.2)]
        rfl
      · have hnumber := number_of_mem_marks h
        rw [ihSecond hp.2 _ _ (number_exit_le first hcursor) mark h hloop,
          backTo_links_eq_nil (Or.inr hnumber.1)]
        rfl
  | fork label yes no ihYes ihNo =>
      have hentry := @backTo_entry_eq_nil given cursor (forkMark given label) hcursor
        (Nat.lt_succ_self given)
      intro mark hmark hloop
      simp only [marks_fork, List.mem_cons, List.mem_append, List.not_mem_nil, or_false] at hmark
      rw [links_fork, ← List.singleton_append, backTo_append, backTo_append, backTo_append,
        hentry, backTo_joins_eq_nil, List.nil_append, List.append_nil, List.length_append]
      rcases hmark with rfl | h | h | rfl
      · exact absurd hloop (by simp [forkMark])
      · have hnumber := number_of_mem_marks h
        rw [ihYes hp.1 _ _ (number_yesAt_le given label) mark h hloop,
          backTo_links_eq_nil (Or.inl hnumber.2)]
        rfl
      · have hnumber := number_of_mem_marks h
        rw [ihNo hp.2 _ _ (number_noAt_le given label yes) mark h hloop,
          backTo_links_eq_nil (Or.inr hnumber.1)]
        rfl
      · exact absurd hloop (by simp [joinMark])
  | repeated label body ihBody =>
      have hentry := @backTo_entry_eq_nil given cursor (loopMark given label) hcursor
        (Nat.lt_succ_self given)
      intro mark hmark hloop
      rw [marks_repeated, List.mem_cons] at hmark
      rw [links_repeated, ← List.singleton_append, backTo_append, hentry, List.nil_append]
      rcases hmark with rfl | h
      · rw [backTo_loopMark]
        rfl
      · have hnumber := (number_of_mem_marks h).1
        rw [backTo_append, backTo_backLink_eq_nil hnumber, List.append_nil]
        exact ihBody hp _ _ (number_bodyAt_le given label) mark h hloop

/-! ## Loops are entered at their diamonds -/

/-- The numbers from that of a diamond to `last` are those of a loop: links enter it at the diamond
only. -/
def EnteredAt (links : List Link) (diamond : Vertex) (last : Nat) : Prop :=
  ∀ link ∈ links, diamond.number ≤ link.target.number → link.target.number ≤ last →
    (diamond.number ≤ link.source.number ∧ link.source.number ≤ last) ∨ link.target = diamond

theorem EnteredAt.append {links more : List Link} {diamond : Vertex} {last : Nat}
    (h : EnteredAt links diamond last) (h' : EnteredAt more diamond last) :
    EnteredAt (links ++ more) diamond last := by
  intro link hlink
  rcases List.mem_append.mp hlink with hlink | hlink
  · exact h link hlink
  · exact h' link hlink

/-- Links that end outside of an interval do not enter it. -/
theorem EnteredAt.of_outside {links : List Link} {diamond : Vertex} {last : Nat}
    (h : ∀ link ∈ links, link.target.number < diamond.number ∨ last < link.target.number) :
    EnteredAt links diamond last := by
  intro link hlink hlow hhigh
  rcases h link hlink with h | h
  · omega
  · omega

/-- A part does not enter an interval before or behind it. -/
theorem enteredAt_links {p : Part} {diamond : Vertex} {last : Nat}
    (h : last ≤ given ∨ given + p.size < diamond.number) :
    EnteredAt (p.links given cursor) diamond last := by
  apply EnteredAt.of_outside
  intro link hlink
  have hnumbers := (numbers_of_mem_links hlink).2
  omega

/-- The link to a node that is older than an interval does not enter it. -/
theorem enteredAt_entry {mark : Mark} {diamond : Vertex} {last : Nat}
    (h : mark.number < diamond.number) :
    EnteredAt [⟨cursor.node, cursor.label, .made mark⟩] diamond last := by
  apply EnteredAt.of_outside
  intro link hlink
  obtain rfl := List.mem_singleton.mp hlink
  exact Or.inl h

/-- The links to a join do not enter an interval before it. -/
theorem enteredAt_joins {label : Text} {yes no : Part} {diamond : Vertex} {last : Nat}
    (h : last ≤ given + 1 + yes.size + no.size) :
    EnteredAt [yesLink given label yes no, noLink given label yes no] diamond last := by
  apply EnteredAt.of_outside
  intro link hlink
  simp only [List.mem_cons, List.not_mem_nil, or_false] at hlink
  rcases hlink with rfl | rfl
  · exact Or.inr (Nat.lt_succ_of_le h)
  · exact Or.inr (Nat.lt_succ_of_le h)

/-- The way back of a loop does not enter an interval inside of its body. -/
theorem enteredAt_backLink {label : Text} {body : Part} {diamond : Vertex} {last : Nat}
    (h : given + 1 < diamond.number) : EnteredAt [backLink given label body] diamond last := by
  apply EnteredAt.of_outside
  intro link hlink
  obtain rfl := List.mem_singleton.mp hlink
  exact Or.inl h

/-- A loop, its diamond and all of its body, is entered at the diamond. -/
theorem enteredAt_loopMark (given : Nat) (cursor : Cursor Vertex) (label : Text) (body : Part) :
    EnteredAt ((repeated label body).links given cursor) (.made (loopMark given label))
      (given + 1 + body.size) := by
  intro link hlink hlow hhigh
  simp only [links_repeated, List.mem_cons, List.mem_append, List.not_mem_nil, or_false] at hlink
  rcases hlink with rfl | hlink | rfl
  · exact Or.inr rfl
  · obtain ⟨hsource | hsource, _⟩ := numbers_of_mem_links hlink
    · rw [hsource]
      exact Or.inl ⟨Nat.le_refl _, Nat.le_add_right _ _⟩
    · exact Or.inl ⟨Nat.le_of_lt hsource.1, hsource.2⟩
  · exact Or.inr rfl

/-- Every link that leads back leads to the diamond of a loop from inside of it.

The induction is on the part. The loop lies in the part that draws it, and the links of the other
parts end before or behind it. -/
theorem exists_loop_interval (p : Part) (given : Nat) (cursor : Cursor Vertex)
    (hcursor : cursor.node.number ≤ given) :
    ∀ back ∈ p.links given cursor, back.target.number ≤ back.source.number →
      ∃ last, back.source.number ≤ last ∧ last ≤ given + p.size ∧
        EnteredAt (p.links given cursor) back.target last := by
  induction p generalizing given cursor with
  | nothing => simp
  | single role label =>
      intro back hback hle
      obtain rfl := List.mem_singleton.mp hback
      exact absurd hle (Nat.not_le_of_lt (Nat.lt_succ_of_le hcursor))
  | andThen first second ihFirst ihSecond =>
      intro back hback hle
      rw [links_andThen, List.mem_append] at hback
      rw [links_andThen, size]
      rcases hback with h | h
      · obtain ⟨last, hsource, hlast, hentered⟩ := ihFirst _ _ hcursor back h hle
        refine ⟨last, hsource, by omega, hentered.append ?_⟩
        exact enteredAt_links (Or.inl hlast)
      · obtain ⟨last, hsource, hlast, hentered⟩ :=
          ihSecond _ _ (number_exit_le first hcursor) back h hle
        have hnumber := (numbers_of_mem_links h).2.1
        refine ⟨last, hsource, by omega, EnteredAt.append ?_ hentered⟩
        exact enteredAt_links (Or.inr hnumber)
  | fork label yes no ihYes ihNo =>
      intro back hback hle
      simp only [links_fork, List.mem_cons, List.mem_append, List.not_mem_nil, or_false] at hback
      rw [links_fork, ← List.singleton_append, size]
      rcases hback with rfl | h | h | rfl | rfl
      · exact absurd hle (Nat.not_le_of_lt (Nat.lt_succ_of_le hcursor))
      · obtain ⟨last, hsource, hbound, hentered⟩ :=
          ihYes _ _ (number_yesAt_le given label) back h hle
        have hnumber := (numbers_of_mem_links h).2.1
        refine ⟨last, hsource, by omega, (enteredAt_entry hnumber).append (hentered.append ?_)⟩
        exact (enteredAt_links (Or.inl hbound)).append (enteredAt_joins (by omega))
      · obtain ⟨last, hsource, hbound, hentered⟩ :=
          ihNo _ _ (number_noAt_le given label yes) back h hle
        have hnumber := (numbers_of_mem_links h).2.1
        have hentry : given + 1 < back.target.number := by omega
        refine ⟨last, hsource, by omega, (enteredAt_entry hentry).append (EnteredAt.append ?_ ?_)⟩
        · exact enteredAt_links (Or.inr hnumber)
        · exact hentered.append (enteredAt_joins hbound)
      · exact absurd hle (Nat.not_le_of_lt (yesLink_forward given label yes no))
      · exact absurd hle (Nat.not_le_of_lt (noLink_forward given label yes no))
  | repeated label body ihBody =>
      intro back hback hle
      simp only [links_repeated, List.mem_cons, List.mem_append, List.not_mem_nil,
        or_false] at hback
      rw [size]
      rcases hback with rfl | h | rfl
      · exact absurd hle (Nat.not_le_of_lt (Nat.lt_succ_of_le hcursor))
      · obtain ⟨last, hsource, hbound, hentered⟩ :=
          ihBody _ _ (number_bodyAt_le given label) back h hle
        have hnumber := (numbers_of_mem_links h).2.1
        rw [links_repeated, ← List.singleton_append]
        refine ⟨last, hsource, by omega, (enteredAt_entry hnumber).append (hentered.append ?_)⟩
        exact enteredAt_backLink hnumber
      · have hexit := number_exit_le body (number_bodyAt_le given label)
        exact ⟨given + 1 + body.size, hexit, by omega, enteredAt_loopMark given cursor label body⟩

end Part

/-! ## The graph of a program -/

namespace Drawn

variable {g : Graph} {marks : List Mark} {links : List Link}

/-- The place of a node is given by its number. -/
theorem place_add_one (hg : Drawn g marks links) {mark : Mark} (h : mark ∈ marks) :
    g.place mark.node.id + 1 = mark.number := by
  obtain ⟨k, hk, rfl⟩ := List.mem_iff_getElem.mp h
  -- The numbers count the marks, so the place of a mark is one less than its number.
  have hnumber : ∀ j (hj : j < marks.length), marks[j].number = j + 1 := by
    intro j hj
    have hget := congrArg (·[j]?) hg.numbers
    simp only [List.getElem?_map, List.getElem?_eq_getElem hj, Option.map_some] at hget
    rw [List.getElem?_range' hj] at hget
    have := Option.some.inj hget
    omega
  have hplace : g.place marks[k].node.id = k := by
    have hlength : k < g.nodes.length := by
      rw [hg.nodes, List.length_map]
      exact hk
    rw [Graph.place, List.findIdx_eq hlength]
    simp only [hg.nodes, List.getElem_map, decide_eq_true_eq, decide_eq_false_iff_not, true_and]
    intro j hj hid
    have heq := hg.eq_of_id_eq (List.getElem_mem (by omega)) h hid
    have hj' := hnumber j (by omega)
    rw [heq, hnumber k hk] at hj'
    omega
  rw [hplace, hnumber k hk]

/-- An edge leads back where its link does. -/
theorem isBack_edge (hg : Drawn g marks links) {link : Link} (h : link ∈ links) :
    g.isBack link.edge = decide (link.target.number ≤ link.source.number) := by
  obtain ⟨⟨source, hsource, hs⟩, target, htarget, ht⟩ := hg.ends link h
  have hsplace := hg.place_add_one hsource
  have htplace := hg.place_add_one htarget
  obtain ⟨s, label, t⟩ := link
  simp only at hs ht
  subst hs ht
  rw [Graph.isBack, decide_eq_decide]
  show g.place target.node.id ≤ g.place source.node.id ↔ target.number ≤ source.number
  omega

end Drawn

theorem mem_trail_of_mem_reading {node : Node} {trail : List (Text × Node)}
    (h : .node node ∈ reading trail) : node ∈ trail.map Prod.snd := by
  induction trail with
  | nil => simp [reading] at h
  | cons step trail ih =>
      obtain ⟨label, next⟩ := step
      rw [reading, List.mem_append, List.mem_cons] at h
      rw [List.map_cons, List.mem_cons]
      rcases h with h | h | h
      · unfold spoken at h
        split at h <;> simp at h
      · exact Or.inl (Event.node.inj h)
      · exact Or.inr (ih h)

namespace Drawn

variable {g : Graph} {marks : List Mark} {links : List Link}

/-- What is reachable along links is reachable by a walk. -/
theorem exists_walk_of_reaches (hg : Drawn g marks links) {u v : Mark} (hu : u ∈ marks)
    (h : Reaches links (.made u) (.made v)) : ∃ trail, g.Walk u.node trail v.node := by
  obtain ⟨word, hpath⟩ := h
  obtain ⟨trail, hwalk, _⟩ := hg.exists_walk hpath ⟨u, hu, rfl⟩
  exact ⟨trail, hwalk⟩

/-- The edges that lead back to a node are the links that do. -/
theorem filter_isBack (hg : Drawn g marks links) {mark : Mark} (h : mark ∈ marks) :
    g.edges.filter (fun edge => g.isBack edge ∧ edge.target = mark.node.id) =
      (Part.backTo links (.made mark)).map Link.edge := by
  rw [hg.edges, List.filter_map, Part.backTo]
  refine congrArg (List.map Link.edge) (List.filter_congr ?_)
  intro link hlink
  simp only [Function.comp_apply, hg.isBack_edge hlink, hg.target_eq_iff hlink h, decide_eq_true_eq]

end Drawn

namespace Part

variable {limit : Int} {statements : List Statement}

/-- Every node of a program is reachable from its start node. -/
theorem start_reaches {mark : Mark} (h : mark ∈ programMarks limit statements) :
    Reaches (programLinks limit statements) (.made (startMark 0)) (.made mark) := by
  rcases List.mem_cons.mp h with rfl | h
  · exact Reaches.refl _ _
  · exact reaches_mark (block limit statements) 1 (startAt 0) mark h

/-- From every node of a program, where the program arrives is reachable. -/
theorem reaches_programExit {mark : Mark} (h : mark ∈ programMarks limit statements) :
    Reaches (programLinks limit statements) (.made mark) (programExit limit statements 0) := by
  rcases List.mem_cons.mp h with rfl | h
  · exact reaches_exit (reaches_mark (block limit statements) 1 (startAt 0))
  · exact mark_reaches (block limit statements) 1 (startAt 0) mark h

/-- A path from the start node to a link that leads back passes the diamond it leads to. -/
theorem node_mem_of_back {back : Link} (hback : back ∈ programLinks limit statements)
    (hle : back.target.number ≤ back.source.number) {word : List Event}
    (h : Path (programLinks limit statements) (.made (startMark 0)) word back.source) :
    .node back.target.node ∈ word := by
  obtain ⟨last, hsource, _, hentered⟩ :=
    exists_loop_interval (block limit statements) 1 (startAt 0) (Nat.le_refl 1) back hback hle
  have htarget : 1 < back.target.number := (numbers_of_mem_links hback).2.1
  -- The start node is older than the loop, so a path into the loop enters it somewhere.
  let inside (v : Vertex) : Prop := back.target.number ≤ v.number ∧ v.number ≤ last
  refine @Path.node_mem_of_enter _ _ _ back.target word inside ?_ ?_ ⟨hle, hsource⟩ h
  · exact fun link hlink ⟨hlow, hhigh⟩ => hentered link hlink hlow hhigh
  · exact fun ⟨hlow, _⟩ => Nat.not_le_of_lt htarget hlow

end Part

section Program

variable (limit : Int) (direction : Text) (statements : List Statement)

/-- An edge of a program goes forward, or it leads to the diamond of a loop. -/
theorem edge_forward_or_loop {edge : Edge}
    (hedge : edge ∈ (Graph.ofStatements limit direction statements).edges) :
    (Graph.ofStatements limit direction statements).place edge.source <
        (Graph.ofStatements limit direction statements).place edge.target ∨
      (Graph.ofStatements limit direction statements).isBack edge ∧
        ∃ node ∈ (Graph.ofStatements limit direction statements).nodes,
          node.id = edge.target ∧ node.IsLoop := by
  have hg := drawn_ofStatements limit direction statements
  rw [hg.edges] at hedge
  obtain ⟨link, hlink, rfl⟩ := List.mem_map.mp hedge
  have hisBack := hg.isBack_edge hlink
  by_cases hle : link.target.number ≤ link.source.number
  · rw [decide_eq_true hle] at hisBack
    rcases Part.forward_or_loop _ 1 (Part.startAt 0) (Nat.le_refl 1) link hlink with
      hlt | ⟨mark, hmark, hloop, htarget⟩
    · omega
    · refine Or.inr ⟨hisBack, mark.node, hg.node_mem (List.mem_cons_of_mem _ hmark), ?_, ?_⟩
      · rw [Link.edge, htarget]
        rfl
      · exact ⟨mark.number, mark.label, by rw [Mark.node, hloop]⟩
  · rw [decide_eq_false hle] at hisBack
    exact Or.inl (Nat.lt_of_not_le (of_decide_eq_false hisBack))

/-- One edge of a program leads back to each diamond of a loop. -/
theorem length_filter_isBack {node : Node}
    (hnode : node ∈ (Graph.ofStatements limit direction statements).nodes)
    (hloop : node.IsLoop) :
    ((Graph.ofStatements limit direction statements).edges.filter fun edge =>
      (Graph.ofStatements limit direction statements).isBack edge ∧
        edge.target = node.id).length = 1 := by
  have hg := drawn_ofStatements limit direction statements
  obtain ⟨mark, hmark, rfl⟩ := hg.exists_mark hnode
  obtain ⟨number, label, hnode⟩ := hloop
  have hrole : mark.role = .loop := by
    have hid := congrArg Node.id hnode
    exact (nodeId_inj (Value.text.inj hid)).1
  rw [hg.filter_isBack hmark, List.length_map]
  rcases List.mem_cons.mp hmark with rfl | hblock
  · exact absurd hrole (by decide)
  · exact Part.length_backTo _ (Part.regular_block limit statements) 1 (Part.startAt 0)
      (Nat.le_refl 1) mark hblock hrole

/-- A walk through a program to an edge that leads back passes the diamond that it leads to. -/
theorem passes_of_isBack {edge : Edge}
    (hedge : edge ∈ (Graph.ofStatements limit direction statements).edges)
    (hback : (Graph.ofStatements limit direction statements).isBack edge) {source : Node}
    {trail : List (Text × Node)} (hsource : source.id = edge.source)
    (hwalk : (Graph.ofStatements limit direction statements).Walk (Part.startMark 0).node trail
      source) :
    ∃ node ∈ (Part.startMark 0).node :: trail.map Prod.snd, node.id = edge.target := by
  have hg := drawn_ofStatements limit direction statements
  rw [hg.edges] at hedge
  obtain ⟨link, hlink, rfl⟩ := List.mem_map.mp hedge
  rw [hg.isBack_edge hlink, decide_eq_true_eq] at hback
  obtain ⟨⟨mark, hmark, hs⟩, target, _, ht⟩ := hg.ends link hlink
  -- The walk ends at the node of the mark that the link leaves.
  obtain ⟨other, hother, rfl⟩ := hg.exists_mark hwalk.last_mem
  have hid : other.node.id = mark.node.id := by
    rw [hsource, Link.edge, hs]
    rfl
  obtain rfl := hg.eq_of_id_eq hother hmark hid
  have hpath := hg.path hwalk List.mem_cons_self rfl hmark rfl
  rw [← hs] at hpath
  have hmem := mem_trail_of_mem_reading (Part.node_mem_of_back hlink hback hpath)
  refine ⟨link.target.node, List.mem_cons_of_mem _ hmem, ?_⟩
  rw [Link.edge, ht]
  rfl

end Program

/-- The graph of a program is reducible, from the start node to the node that the drawing arrives
at. -/
theorem reducible_ofStatements (limit : Int) (direction : Text) (statements : List Statement) :
    ∃ id, ((Builder.new limit direction).build statements).2 = .ok id ∧
      ∃ exit ∈ (Graph.ofStatements limit direction statements).nodes, exit.id = .text id ∧
        (Graph.ofStatements limit direction statements).Reducible (Part.startMark 0).node exit := by
  have hg := drawn_ofStatements limit direction statements
  have hstart : Part.startMark 0 ∈ Part.programMarks limit statements := List.mem_cons_self
  obtain ⟨exit, hexit, hvertex, hbuild⟩ := exists_programExit limit direction statements
  refine ⟨nodeId exit.role exit.number, hbuild, exit.node, hg.node_mem hexit, rfl, ?_⟩
  constructor
  case reachable =>
    intro node hnode
    obtain ⟨mark, hmark, rfl⟩ := hg.exists_mark hnode
    exact hg.exists_walk_of_reaches hstart (Part.start_reaches hmark)
  case exits =>
    intro node hnode
    obtain ⟨mark, hmark, rfl⟩ := hg.exists_mark hnode
    apply hg.exists_walk_of_reaches hmark
    rw [← hvertex]
    exact Part.reaches_programExit hmark
  case forward_or_loop =>
    intro edge hedge
    exact edge_forward_or_loop limit direction statements hedge
  case one_back =>
    intro node hnode hloop
    exact length_filter_isBack limit direction statements hnode hloop
  case dominated =>
    intro edge hedge hback source trail hsource hwalk
    exact passes_of_isBack limit direction statements hedge hback hsource hwalk

end Flowchart
