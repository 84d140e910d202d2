import Flowchart.Proofs.Drawing.Regime
import Flowchart.Proofs.Source.Reading

/-!
# Further arms are nested conditionals

An `else if` may be written as an `else` whose body is another conditional. Main statement: both
draw the same, from every builder, unless the nested form reaches the bound on nesting
(`block_elseIf`).

The arms are drawn in a loop and joined in a second one, the nested form is read from its lines and
drawn one level deeper. What is between the two is a label that the nested form takes back behind
its body. There is none: the diamond where it waited has an edge by then, and later labels wait at
later diamonds. That is the regime `Regime.quietAt`.
-/

set_option autoImplicit false

namespace Flowchart

open Drawing

/-! ## Three regimes -/

namespace Regime

/-- So many identifiers have been given out. -/
def countsPast (number : Nat) : Regime where
  Holds b := number ≤ b.given
  Knows _ _ := True
  MayRefuse := True
  holds_depth _ h := h
  holds_hold _ h _ := h
  holds_release _ h := h
  addNode_ok h _ := ⟨Nat.le_succ_of_le h, trivial, fun _ => id⟩
  addNode_error _ _ := trivial
  addEdge_ok h _ _ _ := ⟨h, fun _ => id⟩
  addEdge_error _ _ _ _ := trivial

/-- No label waits at an older node, and that node takes no part. -/
def quietAt (role : Role) (number : Nat) : Regime where
  Holds b := number ≤ b.given ∧ ∀ entry ∈ b.waiting, entry.1 ≠ nodeId role number
  Knows _ id := id ≠ nodeId role number
  MayRefuse := True
  holds_depth _ h := h
  holds_hold label h hnode := by
    refine ⟨h.1, fun entry hentry => ?_⟩
    rcases List.mem_cons.mp hentry with rfl | hentry
    · exact hnode
    · exact h.2 entry (List.mem_filter.mp hentry).1
  holds_release node h := ⟨h.1, fun entry hentry => h.2 entry (List.mem_filter.mp hentry).1⟩
  addNode_ok h _ := by
    refine ⟨⟨Nat.le_succ_of_le h.1, h.2⟩, fun heq => ?_, fun _ => id⟩
    have hnumber := (nodeId_inj heq).2
    have hle := h.1
    omega
  addNode_error _ _ := trivial
  addEdge_ok h _ _ _ := ⟨h, fun _ => id⟩
  addEdge_error _ _ _ _ := trivial

/-- Every identifier of the graph has been given out, so nothing is refused between its nodes. -/
def numbered : Regime where
  Holds b := b.Numbered
  Knows g id := ∃ node ∈ g.nodes, node.id = .text id
  MayRefuse := False
  holds_depth _ h := h
  holds_hold _ h _ := h
  holds_release _ h := h
  addNode_ok {b role label graph} h hadd := by
    obtain rfl := Graph.addNode_ok hadd
    refine ⟨h.extend_node role label, ⟨nodeOf role (b.given + 1) label, by simp, rfl⟩, ?_⟩
    rintro id ⟨node, hnode, hid⟩
    exact ⟨node, List.mem_append_left _ hnode, hid⟩
  addNode_error {b role label reason} h hadd := by
    have hok := h.addNode role label
    rw [Mark.node, hadd] at hok
    cases hok
  addEdge_ok h _ _ hadd := by
    obtain rfl := Graph.addEdge_ok hadd
    exact ⟨h, fun _ => id⟩
  addEdge_error _ hsource htarget hadd := by
    rw [Graph.addEdge_of_mem hsource htarget] at hadd
    cases hadd

end Regime

/-! ## The arms and the joins as one recursion -/

section Arms

variable (body : List Text → Text → Drawing Text)

theorem furtherArms_append (diamond : Text) (exits more : List (Cursor Text)) (arms : List Arm) :
    furtherArms body diamond (exits ++ more) arms = (do
      let x ← furtherArms body diamond exits arms
      return (x.1, x.2 ++ more)) := by
  induction arms generalizing diamond exits with
  | nil => simp [furtherArms]
  | cons a arms ih =>
      simp only [furtherArms, bind_assoc]
      refine bind_congr fun _ => bind_congr fun x => ?_
      exact ih x.1 (x.2 :: exits)

theorem joins_append (exits more : List (Cursor Text)) (joined : Cursor Text) :
    joins (exits ++ more) joined = joins exits joined >>= joins more := by
  induction exits generalizing joined with
  | nil => simp [joins]
  | cons exit exits ih => simp only [List.cons_append, joins, ih, bind_assoc]

/-- Behind a join no label is left. -/
theorem joins_concat_bind {α : Type} (exits : List (Cursor Text)) (exit joined : Cursor Text)
    (k : Cursor Text → Drawing α) :
    (joins (exits ++ [exit]) joined >>= fun last => k ⟨last.node, []⟩) =
      joins (exits ++ [exit]) joined >>= k := by
  simp only [joins_append, joins, bind_assoc, pure_bind]

/-- A further arm is drawn as the answer no of the arm before it. -/
theorem conditional_cons (first second : Arm) (rest : List Arm) (elseBody : List Text)
    (current : Text) :
    conditional body first (second :: rest) elseBody current = (do
      let diamond ← append current .conditional (conditionLabel first.condition)
      let exit ← branch body first.body diamond "Yes".toList
      hold diamond "No".toList
      let otherwise ← conditional body second rest elseBody diamond
      let joined ← joins [exit] ⟨otherwise, []⟩
      return joined.node) := by
  simp only [conditional, arm, furtherArms, bind_assoc, pure_bind]
  refine bind_congr fun diamond => bind_congr fun exit => bind_congr fun _ => bind_congr fun next =>
    bind_congr fun yes => ?_
  have hfirst := furtherArms_append body next [] [yes] rest
  have hboth := furtherArms_append body next [] [yes, exit] rest
  rw [List.nil_append] at hfirst hboth
  simp only [hfirst, hboth, bind_assoc, pure_bind]
  refine bind_congr fun x => bind_congr fun otherwise => ?_
  -- The branch of the first arm is joined last, behind all others.
  have hlast := joins_concat_bind x.2 yes otherwise fun last =>
    joins [exit] last >>= fun joined => pure joined.node
  rw [hlast, show x.2 ++ [yes, exit] = (x.2 ++ [yes]) ++ [exit] by simp, joins_append _ [exit],
    bind_assoc]

theorem conditional_nil (first : Arm) (elseBody : List Text) (current : Text) :
    conditional body first [] elseBody current = (do
      let diamond ← append current .conditional (conditionLabel first.condition)
      let exit ← branch body first.body diamond "Yes".toList
      let otherwise ← branch body elseBody diamond "No".toList
      let joined ← joins [exit] otherwise
      return joined.node) := by
  simp only [conditional, arm, furtherArms, bind_assoc, pure_bind]

theorem block_singleton (s : Statement) (current : Text) :
    block body [s] current = statement body current s := by
  simp [block]

end Arms

/-! ## The nested form one level deeper -/

theorem release_run_of_quiet {node : Text} {b : Builder}
    (h : ∀ entry ∈ b.waiting, entry.1 ≠ node) : (release node).run b = .ok [] b := by
  have hlookup : b.waiting.lookup node = none := by
    rw [List.lookup_eq_none_iff]
    intro entry hentry
    exact bne_iff_ne.mpr (h entry hentry).symm
  have hfilter : b.waiting.filter (fun entry => entry.1 ≠ node) = b.waiting :=
    List.filter_eq_self.mpr fun entry hentry => decide_eq_true (h entry hentry)
  rw [release, EStateM.run_modifyGet, hlookup, hfilter]
  rfl

theorem depth_eq_self {b : Builder} {depth : Nat} (h : b.depth = depth) :
    { b with depth := depth } = b := by
  subst h
  rfl

theorem run_bind_left {α β : Type} {d d' : Drawing α} {b : Builder} (h : d.run b = d'.run b)
    (k : α → Drawing β) : (d >>= k).run b = (d' >>= k).run b := by
  rw [EStateM.run_bind, EStateM.run_bind, h]

/-- What is left when a node was appended. -/
theorem append_ok {current id label : Text} {role : Role} {b after : Builder}
    (h : (append current role label).run b = .ok id after) :
    id = nodeId role (b.given + 1) ∧ ∃ graph, after =
      { b with
        graph := graph
        given := b.given + 1
        waiting := b.waiting.filter fun entry => entry.1 ≠ current } := by
  rw [append, EStateM.run_bind] at h
  cases hnode : b.graph.addNode (nodeOf role (b.given + 1) label) with
  | error reason =>
      rw [addNode_run_error hnode] at h
      cases h
  | ok graph =>
      rw [addNode_run_ok hnode] at h
      simp only [link, release, EStateM.run_bind, EStateM.run_modifyGet, EStateM.run_pure,
        change_run] at h
      split at h
      · rename_i hlink
        split at hlink
        · cases hlink
          cases h
          exact ⟨rfl, _, rfl⟩
        · cases hlink
      · cases h

/-- A conditional hung off an older node draws its first edge from there, and nothing later touches
that node. -/
theorem conditional_quiet {body body' : List Text → Text → Drawing Text} {first : Arm}
    {more : List Arm} {elseBody : List Text} {role : Role} {number depth depth' : Nat}
    (hbody : ∀ ls ∈ (first :: more).map Arm.body ++ [elseBody],
      (Regime.quietAt role number).AlikeFrom depth depth' (body ls) (body' ls))
    {b : Builder} (hb : b.depth = depth) (hnumber : number ≤ b.given) :
    (Regime.quietAt role number).Outcome depth depth' b.graph (fun id => [id])
      ((conditional body first more elseBody (nodeId role number)).run b)
      ((conditional body' first more elseBody (nodeId role number)).run
        { b with depth := depth' }) := by
  have happend := @Regime.append_alike (Regime.countsPast number) depth depth' .conditional
    (conditionLabel first.condition) (nodeId role number) b hb hnumber fun _ _ => trivial
  rw [Regime.conditional_eq, Regime.conditional_eq, EStateM.run_bind, EStateM.run_bind]
  generalize hrun : (append _ .conditional _).run b = s,
    (append _ .conditional _).run { b with depth := depth' } = s' at happend
  cases happend with
  | refused reason after hdepth hrefuse => exact .refused reason after hdepth trivial
  | done id after hdepth hholds hkept hgives =>
      obtain ⟨hid, graph, hafter⟩ := append_ok hrun
      have hquiet : (Regime.quietAt role number).Holds after := by
        refine ⟨hholds, fun entry hentry => ?_⟩
        rw [hafter] at hentry
        exact of_decide_eq_true (List.mem_filter.mp hentry).2
      have hnew : id ≠ nodeId role number := by
        rw [hid]
        intro heq
        have hnumber' := (nodeId_inj heq).2
        omega
      have hbehind : (Regime.quietAt role number).Alike depth depth'
          (Regime.behindDiamond body first.body more elseBody id)
          (Regime.behindDiamond body' first.body more elseBody id) [id] fun id => [id] := by
        refine Regime.behindDiamond_alike (hbody _ (by simp)) (fun a ha => hbody _ ?_)
          (hbody _ (by simp)) List.mem_cons_self
        exact List.mem_append_left _ (List.mem_map_of_mem (List.mem_cons_of_mem _ ha))
      exact (hbehind after hdepth hquiet (List.forall_mem_singleton.mpr hnew)).mono fun _ h => h

section Nested

variable {ls elseBody : List Text} {second : Arm} {rest : List Arm} {line : Text}
  (hls : Source.statements ls = [.conditional second rest elseBody line]) {b : Builder}
  (hfits : Source.Fits (maxNesting - b.depth) ls)

include hls hfits

/-- A body that is read as a conditional is drawn as that conditional, and leaves no label behind
at the node it hangs off. -/
theorem lines_elseIf {room : Nat} (hb : b.depth < maxNesting)
    (hroom : maxNesting ≤ b.depth + room) (role : Role) {number : Nat}
    (hnumber : number ≤ b.given) :
    (do
      let exit ← lines room ls (nodeId role number)
      return ⟨exit, ← release (nodeId role number)⟩ : Drawing (Cursor Text)).run b = (do
      let exit ← conditional (lines room) second rest elseBody (nodeId role number)
      return ⟨exit, []⟩ : Drawing (Cursor Text)).run b := by
  obtain ⟨room, rfl⟩ : ∃ n, room = n + 1 := ⟨room - 1, by omega⟩
  have hbodies : ∀ body ∈ (second :: rest).map Arm.body ++ [elseBody],
      (Regime.quietAt role number).AlikeFrom b.depth (b.depth + 1) (lines (room + 1) body)
        (lines room body) := by
    obtain ⟨levels, hlevels⟩ : ∃ n, maxNesting - b.depth = n + 1 :=
      ⟨maxNesting - b.depth - 1, by omega⟩
    rw [hlevels] at hfits
    intro body hbody
    have hinner : Source.Fits levels body :=
      hfits (.conditional second rest elseBody line) (by simp [hls]) body hbody
    exact Regime.lines_alike hinner (by omega) (by omega) (by omega) (by omega)
  have hquiet := conditional_quiet hbodies rfl hnumber
  rw [EStateM.run_bind, EStateM.run_bind, lines_run room ls _ hb, hls, block_singleton, inside_run,
    statement]
  generalize (conditional (lines (room + 1)) second rest elseBody _).run b = s,
    (conditional (lines room) second rest elseBody _).run _ = s' at hquiet
  cases hquiet with
  | refused reason after hdepth hrefuse =>
      simp only [withDepth, Nat.add_sub_cancel, depth_eq_self hdepth]
  | done exit after hdepth hholds hkept hgives =>
      simp only [withDepth, Nat.add_sub_cancel, depth_eq_self hdepth, EStateM.run_bind,
        release_run_of_quiet hholds.2]

/-- A branch with such a body is a label that waits and the conditional. -/
theorem branch_elseIf {room : Nat} (hb : b.depth < maxNesting)
    (hroom : maxNesting ≤ b.depth + room) (role : Role) {number : Nat} (hnumber : number ≤ b.given)
    (label : Text) :
    (branch (lines room) ls (nodeId role number) label).run b = (do
      hold (nodeId role number) label
      let exit ← conditional (lines room) second rest elseBody (nodeId role number)
      return ⟨exit, []⟩ : Drawing (Cursor Text)).run b := by
  refine run_bind_congr fun _ held hheld => ?_
  have hdepth : held.depth = b.depth := by
    cases hheld
    rfl
  have hgiven : held.given = b.given := by
    cases hheld
    rfl
  rw [← hdepth] at hb hroom hfits
  exact lines_elseIf hls hfits hb hroom role (hgiven ▸ hnumber)

/-- A chain of arms and the nested form are drawn the same. -/
theorem conditional_elseIf {first : Arm} (hfirst : Source.Fits (maxNesting - b.depth) first.body)
    (current : Text) :
    (conditional (lines maxNesting) first (second :: rest) elseBody current).run b =
      (conditional (lines maxNesting) first [] ls current).run b := by
  -- At the bound only an empty body fits, and that is not read as a conditional.
  have hb : b.depth < maxNesting := by
    rcases Nat.lt_or_ge b.depth maxNesting with hlt | hge
    · exact hlt
    · rw [Nat.sub_eq_zero_of_le hge] at hfits
      obtain rfl : ls = [] := hfits
      rw [Source.statements] at hls
      cases hls
  rw [conditional_cons, conditional_nil]
  refine run_bind_congr fun diamond drawn happend => ?_
  obtain ⟨rfl, graph, hdrawn⟩ := append_ok happend
  have hgiven : b.given + 1 ≤ drawn.given := by simp [hdrawn]
  have hdepth : drawn.depth = b.depth := by rw [hdrawn]
  refine run_bind_congr fun exit after hbranch => ?_
  have hyes : (Regime.countsPast (b.given + 1)).AlikeFrom b.depth b.depth
      (lines maxNesting first.body) (lines maxNesting first.body) :=
    Regime.lines_alike hfirst (by omega) (by omega) (by omega) (by omega)
  have hknown : nodeId .conditional (b.given + 1) ∈ [nodeId .conditional (b.given + 1)] :=
    List.mem_cons_self
  obtain ⟨hdepth', hgiven'⟩ := (Regime.branch_alike hyes hknown "Yes".toList).run_ok hdepth hgiven
    (fun _ _ => trivial) hbranch
  have hno := branch_elseIf hls (hdepth' ▸ hfits) (hdepth' ▸ hb) (Nat.le_add_left maxNesting _)
    .conditional hgiven' "No".toList
  rw [run_bind_left hno]
  simp only [bind_assoc, pure_bind]

end Nested

/-! ## Chains -/

/-- A statement whose bodies fit is drawn to its end behind a node of a graph whose identifiers have
all been given out. -/
theorem block_ok {s : Statement} {b : Builder} (hb : b.Numbered)
    (hfits : ∀ body ∈ s.bodies, Source.Fits (maxNesting - b.depth) body) {current : Text}
    (hcurrent : ∃ node ∈ b.graph.nodes, node.id = .text current) :
    ∃ exit, (b.block [s] current).2 = .ok exit := by
  have hbody : ∀ body ∈ s.bodies, Regime.numbered.AlikeFrom b.depth b.depth
      (lines maxNesting body) (lines maxNesting body) := fun body hbody =>
    Regime.lines_alike (hfits body hbody) (by omega) (by omega) (by omega) (by omega)
  have hknown : ∀ id ∈ [current], Regime.numbered.Knows b.graph id :=
    List.forall_mem_singleton.mpr hcurrent
  obtain ⟨exit, after, hrun⟩ :=
    (Regime.statement_alike hbody current).exists_ok (fun h => h) rfl hb hknown
  refine ⟨exit, ?_⟩
  rw [Builder.block, block_singleton, Builder.perform, hrun]

/-- A chain of arms and the nested form are drawn the same, from every builder. -/
theorem block_elseIf {first second : Arm} {rest : List Arm} {ls elseBody : List Text}
    {line outer inner : Text}
    (hls : Source.statements ls = [.conditional second rest elseBody inner]) {b : Builder}
    (hfits : ∀ body ∈ (Statement.conditional first [] ls outer).bodies,
      Source.Fits (maxNesting - b.depth) body) (current : Text) :
    b.block [.conditional first (second :: rest) elseBody line] current =
        b.block [.conditional first [] ls outer] current ∧
      (b.Numbered → (∃ node ∈ b.graph.nodes, node.id = .text current) →
        ∃ exit, (b.block [.conditional first [] ls outer] current).2 = .ok exit) := by
  have hrun := conditional_elseIf hls (hfits _ (List.mem_append_right _ List.mem_cons_self))
    (hfits _ List.mem_cons_self) current
  refine ⟨?_, fun hb => block_ok hb hfits⟩
  rw [Builder.block, Builder.block, block_singleton, block_singleton, statement, statement,
    Builder.perform, Builder.perform, hrun]

/-! ## A chain at the bound on nesting -/

/-- A conditional with a further arm. Its first body holds another conditional, so reading it to the
end takes three levels. -/
def nestedLines : List Text :=
  ["if (b) if (c) log(1);".toList, "else if (d) z = 1; else v();".toList]

/-- A builder that leaves just these levels, inside of a branch. -/
def deepBuilder : Builder :=
  { graph := { nodes := [nodeOf .conditional 1 "if x".toList] }
    given := 1
    depth := 61
    waiting := [("if1".toList, "Yes".toList)] }

theorem statements_nestedLines :
    Source.statements nestedLines =
      [.conditional ⟨"b".toList, ["if (c) log(1);".toList]⟩ [⟨"d".toList, ["z = 1".toList]⟩]
        ["v();".toList] "if (b) if (c) log(1);".toList] := by
  have hlast : Source.alternatives "else v();".toList [] = ⟨[], ["v();".toList], []⟩ := by
    have helse : Source.elseAfter "else v();".toList [] = (some "v();".toList, []) := rfl
    exact Source.alternatives_of_last helse (by decide) rfl
  have harm : Source.alternatives [] ["else if (d) z = 1; else v();".toList] =
      ⟨[⟨"d".toList, ["z = 1".toList]⟩], ["v();".toList], []⟩ := by
    have helse : Source.elseAfter [] ["else if (d) z = 1; else v();".toList] =
        (some "if (d) z = 1; else v();".toList, []) := rfl
    have hbody : Source.bodyAfter (Source.parenGroup "if (d) z = 1; else v();".toList).2 [] =
        ⟨["z = 1".toList], "else v();".toList, []⟩ := rfl
    rw [Source.alternatives_of_arm helse (by decide) hbody, hlast]
    rfl
  have hbody : Source.bodyAfter (Source.parenGroup "if (b) if (c) log(1);".toList).2
      ["else if (d) z = 1; else v();".toList] =
        ⟨["if (c) log(1);".toList], [], ["else if (d) z = 1; else v();".toList]⟩ := rfl
  have hread := Source.read_conditional (by decide) hbody harm
  rw [nestedLines, Source.statements_of_read hread, Source.statements_nil]
  rfl

theorem fits_nil (levels : Nat) : Source.Fits levels [] := by
  cases levels with
  | zero => rfl
  | succ levels => simp [Source.Fits, Source.statements_nil]

theorem fits_of_read {levels : Nat} {line : Text} {s : Statement}
    (hread : Source.read line [] = (some s, []))
    (hbodies : ∀ inner ∈ s.bodies, Source.Fits levels inner) : Source.Fits (levels + 1) [line] := by
  rw [Source.Fits, Source.statements_of_read hread, Source.statements_nil]
  simpa using hbodies

theorem fits_nestedLines : Source.Fits 3 nestedLines := by
  have hlog : Source.Fits 1 ["log(1);".toList] := fits_of_read rfl (by simp [Statement.bodies])
  have hinner : Source.Fits 2 ["if (c) log(1);".toList] := by
    have hbody : Source.bodyAfter (Source.parenGroup "if (c) log(1);".toList).2 [] =
        ⟨["log(1);".toList], [], []⟩ := rfl
    refine fits_of_read (Source.read_conditional (by decide) hbody
      (Source.alternatives_of_none rfl)) ?_
    simpa [Statement.bodies] using ⟨hlog, fits_nil 1⟩
  have hfurther : Source.Fits 2 ["z = 1".toList] := fits_of_read rfl (by simp [Statement.bodies])
  have helse : Source.Fits 2 ["v();".toList] := fits_of_read rfl (by simp [Statement.bodies])
  rw [Source.Fits, statements_nestedLines]
  simpa [Statement.bodies] using ⟨hinner, hfurther, helse⟩

/-- The chain and the nested form at the bound. -/
theorem block_elseIf_deepBuilder :
    (∀ body ∈ (Statement.conditional ⟨"a".toList, ["w();".toList]⟩ [] nestedLines []).bodies,
        Source.Fits (maxNesting - deepBuilder.depth) body) ∧
      deepBuilder.block [.conditional ⟨"a".toList, ["w();".toList]⟩
          [⟨"b".toList, ["if (c) log(1);".toList]⟩, ⟨"d".toList, ["z = 1".toList]⟩]
          ["v();".toList] []] "if1".toList =
        deepBuilder.block [.conditional ⟨"a".toList, ["w();".toList]⟩ [] nestedLines []]
          "if1".toList ∧
      ∃ exit, (deepBuilder.block [.conditional ⟨"a".toList, ["w();".toList]⟩ [] nestedLines []]
        "if1".toList).2 = .ok exit := by
  have hfirst : Source.Fits 3 ["w();".toList] := fits_of_read rfl (by simp [Statement.bodies])
  have hfits : ∀ body ∈
      (Statement.conditional ⟨"a".toList, ["w();".toList]⟩ [] nestedLines []).bodies,
        Source.Fits (maxNesting - deepBuilder.depth) body := by
    simpa [Statement.bodies, maxNesting, deepBuilder] using ⟨hfirst, fits_nestedLines⟩
  have hnumbered : deepBuilder.Numbered := by
    intro node hnode
    obtain rfl := List.mem_singleton.mp hnode
    exact ⟨.conditional, 1, rfl, Nat.le_refl 1⟩
  obtain ⟨hsame, hends⟩ := block_elseIf statements_nestedLines hfits "if1".toList
  exact ⟨hfits, hsame, hends hnumbered ⟨_, List.mem_cons_self, by decide⟩⟩

end Flowchart
