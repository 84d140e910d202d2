import Flowchart.Proofs.Drawing.Simulation

/-!
# What every drawing keeps

A `Regime` is something that holds of a builder and that no single addition and no waiting label
can break. Whatever a drawing is made of, it keeps a regime, and it does the same for builders that
differ only in their depth, as long as no body reaches the bound on nesting. Both are said at once
by `Regime.Alike`, a relation between two drawings with one rule for each way to put drawings
together; main statement: `Regime.lines_alike`, for the lines of a body.

`Source.Fits` says how many levels of nesting it takes to read a body to the end.
-/

set_option autoImplicit false

namespace Flowchart

open Drawing

/-! ## The levels that a body takes -/

/-- The bodies of a statement, in order. -/
def Statement.bodies : Statement → List (List Text)
  | .conditional first more elseBody _ => (first :: more).map Arm.body ++ [elseBody]
  | .loop _ _ body _ => [body]
  | _ => []

/-- The lines of a body are read to the end within `room` levels of nesting. An empty body takes
no level. -/
def Source.Fits : (room : Nat) → List Text → Prop
  | 0, body => body = []
  | room + 1, body => ∀ s ∈ Source.statements body, ∀ inner ∈ s.bodies, Fits room inner

/-! ## Nodes -/

theorem addNode_run_ok {b : Builder} {role : Role} {label : Text} {graph : Graph}
    (hadd : b.graph.addNode (nodeOf role (b.given + 1) label) = .ok graph) :
    (addNode role label).run b =
      .ok (nodeId role (b.given + 1)) { b with given := b.given + 1, graph := graph } := by
  rw [nodeOf] at hadd
  simp only [addNode, newId, EStateM.run_bind, EStateM.run_modify, EStateM.run_get,
    EStateM.run_pure, change_run, hadd]

/-- A refused node uses up its number. -/
theorem addNode_run_error {b : Builder} {role : Role} {label : Text} {reason : GraphError}
    (hadd : b.graph.addNode (nodeOf role (b.given + 1) label) = .error reason) :
    (addNode role label).run b = .error reason { b with given := b.given + 1 } := by
  rw [nodeOf] at hadd
  simp only [addNode, newId, EStateM.run_bind, EStateM.run_modify, EStateM.run_get,
    EStateM.run_pure, change_run, hadd]

/-! ## Regimes -/

/-- What holds of a builder while it draws, and which nodes may take part: those that labels wait
at and that edges join. -/
structure Regime where
  Holds : Builder → Prop
  Knows : Graph → Text → Prop
  /-- The graph may refuse an addition. -/
  MayRefuse : Prop
  holds_depth : ∀ {b : Builder} (depth : Nat), Holds b → Holds { b with depth := depth }
  holds_hold : ∀ {b : Builder} {node : Text} (label : Text), Holds b → Knows b.graph node →
    Holds { b with waiting := (node, label) :: b.waiting.filter fun entry => entry.1 ≠ node }
  holds_release : ∀ {b : Builder} (node : Text), Holds b →
    Holds { b with waiting := b.waiting.filter fun entry => entry.1 ≠ node }
  addNode_ok : ∀ {b : Builder} {role : Role} {label : Text} {graph : Graph}, Holds b →
    b.graph.addNode (nodeOf role (b.given + 1) label) = .ok graph →
      Holds { b with given := b.given + 1, graph := graph } ∧
        Knows graph (nodeId role (b.given + 1)) ∧ ∀ id, Knows b.graph id → Knows graph id
  addNode_error : ∀ {b : Builder} {role : Role} {label : Text} {reason : GraphError}, Holds b →
    b.graph.addNode (nodeOf role (b.given + 1) label) = .error reason → MayRefuse
  addEdge_ok : ∀ {b : Builder} {source target label : Text} {graph : Graph}, Holds b →
    Knows b.graph source → Knows b.graph target →
      b.graph.addEdge ⟨.text source, .text target, .text label⟩ = .ok graph →
        Holds { b with graph := graph } ∧ ∀ id, Knows b.graph id → Knows graph id
  addEdge_error : ∀ {b : Builder} {source target label : Text} {reason : GraphError}, Holds b →
    Knows b.graph source → Knows b.graph target →
      b.graph.addEdge ⟨.text source, .text target, .text label⟩ = .error reason → MayRefuse

namespace Regime

variable (r : Regime) (depth depth' : Nat) {α β : Type}

/-- How two drawings end that do the same, at two depths: with the same result and builders that
differ only in their depth. A drawing that is not refused keeps what holds and what is known. -/
inductive Outcome (before : Graph) (gives : α → List Text) :
    EStateM.Result GraphError Builder α → EStateM.Result GraphError Builder α → Prop where
  | done (x : α) (after : Builder) (hdepth : after.depth = depth) (hholds : r.Holds after)
      (hkept : ∀ id, r.Knows before id → r.Knows after.graph id)
      (hgives : ∀ id ∈ gives x, r.Knows after.graph id) :
      Outcome before gives (.ok x after) (.ok x { after with depth := depth' })
  | refused (reason : GraphError) (after : Builder) (hdepth : after.depth = depth)
      (hrefuse : r.MayRefuse) :
      Outcome before gives (.error reason after) (.error reason { after with depth := depth' })

/-- Two drawings do the same at two depths, where the nodes that they need are known. -/
def Alike (m m' : Drawing α) (needs : List Text) (gives : α → List Text) : Prop :=
  ∀ b : Builder, b.depth = depth → r.Holds b → (∀ id ∈ needs, r.Knows b.graph id) →
    r.Outcome depth depth' b.graph gives (m.run b) (m'.run { b with depth := depth' })

/-- Two drawings from a node to another do the same at two depths. -/
def AlikeFrom (m m' : Text → Drawing Text) : Prop :=
  ∀ current, r.Alike depth depth' (m current) (m' current) [current] fun id => [id]

variable {r depth depth'}

/-! ## Putting drawings together -/

theorem Outcome.mono {before middle : Graph} {gives : α → List Text}
    {s s' : EStateM.Result GraphError Builder α} (h : r.Outcome depth depth' middle gives s s')
    (hkept : ∀ id, r.Knows before id → r.Knows middle id) :
    r.Outcome depth depth' before gives s s' := by
  cases h with
  | done x after hdepth hholds hkept' hgives =>
      exact .done x after hdepth hholds (fun id hid => hkept' id (hkept id hid)) hgives
  | refused reason after hdepth hrefuse => exact .refused reason after hdepth hrefuse

theorem Alike.bind {m m' : Drawing α} {k k' : α → Drawing β} {needs : List Text}
    {middle : α → List Text} {gives : β → List Text} (hm : r.Alike depth depth' m m' needs middle)
    (hk : ∀ x, r.Alike depth depth' (k x) (k' x) (middle x ++ needs) gives) :
    r.Alike depth depth' (m >>= k) (m' >>= k') needs gives := by
  intro b hb hholds hneeds
  have h := hm b hb hholds hneeds
  rw [EStateM.run_bind, EStateM.run_bind]
  generalize m.run b = s, m'.run { b with depth := depth' } = s' at h
  cases h with
  | refused reason after hdepth hrefuse => exact .refused reason after hdepth hrefuse
  | done x after hdepth hholds' hkept hgives =>
      refine (hk x after hdepth hholds' ?_).mono hkept
      intro id hid
      rcases List.mem_append.mp hid with hid | hid
      · exact hgives id hid
      · exact hkept id (hneeds id hid)

theorem Alike.pure {x : α} {needs : List Text} {gives : α → List Text}
    (h : ∀ id ∈ gives x, id ∈ needs) : r.Alike depth depth' (pure x) (pure x) needs gives := by
  intro b hb hholds hneeds
  exact .done x b hb hholds (fun _ => id) fun id hid => hneeds id (h id hid)

/-- What holds behind a drawing that is not refused. -/
theorem Alike.run_ok {m m' : Drawing α} {needs : List Text} {gives : α → List Text}
    (h : r.Alike depth depth' m m' needs gives) {b after : Builder} {x : α} (hb : b.depth = depth)
    (hholds : r.Holds b) (hneeds : ∀ id ∈ needs, r.Knows b.graph id)
    (hrun : m.run b = .ok x after) : after.depth = depth ∧ r.Holds after := by
  have hends := h b hb hholds hneeds
  rw [hrun] at hends
  generalize m'.run { b with depth := depth' } = s' at hends
  cases hends with
  | done _ _ hdepth hholds' hkept hgives => exact ⟨hdepth, hholds'⟩

/-- Where the graph refuses nothing, a drawing ends with a result. -/
theorem Alike.exists_ok {m m' : Drawing α} {needs : List Text} {gives : α → List Text}
    (h : r.Alike depth depth' m m' needs gives) (hrefuse : ¬ r.MayRefuse) {b : Builder}
    (hb : b.depth = depth) (hholds : r.Holds b) (hneeds : ∀ id ∈ needs, r.Knows b.graph id) :
    ∃ x after, m.run b = .ok x after := by
  have hends := h b hb hholds hneeds
  generalize m.run b = s, m'.run { b with depth := depth' } = s' at hends
  cases hends with
  | refused reason after hdepth hmay => exact absurd hmay hrefuse
  | done x after hdepth hholds' hkept hgives => exact ⟨x, after, rfl⟩

theorem AlikeFrom.of_mem {m m' : Text → Drawing Text} (h : r.AlikeFrom depth depth' m m')
    {needs : List Text} {current : Text} (hcurrent : current ∈ needs) :
    r.Alike depth depth' (m current) (m' current) needs fun id => [id] := by
  intro b hb hholds hneeds
  exact h current b hb hholds (List.forall_mem_singleton.mpr (hneeds current hcurrent))

/-! ## Additions -/

section Additions

variable {needs : List Text}

theorem addNode_alike (role : Role) (label : Text) :
    r.Alike depth depth' (addNode role label) (addNode role label) needs fun id => [id] := by
  intro b hb hholds _
  cases hadd : b.graph.addNode (nodeOf role (b.given + 1) label) with
  | error reason =>
      rw [addNode_run_error hadd,
        @addNode_run_error { b with depth := depth' } role label reason hadd]
      exact .refused reason _ hb (r.addNode_error hholds hadd)
  | ok graph =>
      rw [addNode_run_ok hadd, @addNode_run_ok { b with depth := depth' } role label graph hadd]
      obtain ⟨hholds', hnew, hkept⟩ := r.addNode_ok hholds hadd
      exact .done _ _ hb hholds' hkept (List.forall_mem_singleton.mpr hnew)

theorem hold_alike {node : Text} (hnode : node ∈ needs) (label : Text) :
    r.Alike depth depth' (hold node label) (hold node label) needs fun _ => [] := by
  intro b hb hholds hneeds
  exact .done () _ hb (r.holds_hold label hholds (hneeds node hnode)) (fun _ => id)
    fun _ h => absurd h List.not_mem_nil

theorem release_alike (node : Text) :
    r.Alike depth depth' (release node) (release node) needs fun _ => [] := by
  intro b hb hholds _
  exact .done _ _ hb (r.holds_release node hholds) (fun _ => id) fun _ h =>
    absurd h List.not_mem_nil

theorem change_alike {source target label : Text} (hsource : source ∈ needs)
    (htarget : target ∈ needs) :
    r.Alike depth depth' (change (Graph.addEdge · ⟨.text source, .text target, .text label⟩))
      (change (Graph.addEdge · ⟨.text source, .text target, .text label⟩)) needs fun _ => [] := by
  intro b hb hholds hneeds
  have hs := hneeds source hsource
  have ht := hneeds target htarget
  rw [change_run, change_run]
  cases hadd : b.graph.addEdge ⟨.text source, .text target, .text label⟩ with
  | error reason => exact .refused reason b hb (r.addEdge_error hholds hs ht hadd)
  | ok graph =>
      obtain ⟨hholds', hkept⟩ := r.addEdge_ok hholds hs ht hadd
      exact .done () _ hb hholds' hkept fun _ h => absurd h List.not_mem_nil

theorem link_alike {source target : Text} (hsource : source ∈ needs) (htarget : target ∈ needs)
    (label : Text) :
    r.Alike depth depth' (link source target label) (link source target label) needs
      fun _ => [] :=
  (release_alike source).bind fun _ => change_alike hsource htarget

theorem append_alike (role : Role) (label : Text) :
    r.AlikeFrom depth depth' (append · role label) (append · role label) := by
  intro current
  refine (addNode_alike role label).bind fun id => ?_
  refine (link_alike (by simp) (by simp) []).bind fun _ => ?_
  exact Alike.pure (by simp)

/-- A plain statement looks at the limit of the builder and at nothing else. -/
theorem plain_alike (t : Text) : r.AlikeFrom depth depth' (plain t) (plain t) := by
  intro current
  unfold plain
  split
  · exact Alike.pure (by simp)
  · intro b hb hholds hneeds
    exact append_alike _ (stepLabel b.limit t) current b hb hholds hneeds

end Additions

/-! ## Statements -/

/-- Drawings one behind the other are alike when each of them is. -/
theorem sequence_alike {m m' : Text → α → Drawing Text} {xs : List α}
    (h : ∀ x ∈ xs, r.AlikeFrom depth depth' (m · x) (m' · x)) :
    r.AlikeFrom depth depth' (fun t => xs.foldlM m t) fun t => xs.foldlM m' t := by
  induction xs with
  | nil =>
      intro current
      exact Alike.pure (by simp)
  | cons x xs ih =>
      intro current
      show r.Alike depth depth' (List.foldlM m current (x :: xs))
        (List.foldlM m' current (x :: xs)) _ _
      rw [List.foldlM_cons, List.foldlM_cons]
      refine (h x List.mem_cons_self current).bind fun id => ?_
      exact (ih fun y hy => h y (List.mem_cons_of_mem _ hy)).of_mem (by simp)

section Bodies

variable {body body' : List Text → Text → Drawing Text}

theorem branch_alike {ls : List Text} (hbody : r.AlikeFrom depth depth' (body ls) (body' ls))
    {needs : List Text} {origin : Text} (horigin : origin ∈ needs) (label : Text) :
    r.Alike depth depth' (branch body ls origin label) (branch body' ls origin label) needs
      fun exit => [exit.node] := by
  refine (hold_alike horigin label).bind fun _ => ?_
  refine (hbody.of_mem (by simp [horigin])).bind fun exit => ?_
  refine (release_alike origin).bind fun _ => ?_
  exact Alike.pure (by simp)

theorem arm_alike {a : Arm} (hbody : r.AlikeFrom depth depth' (body a.body) (body' a.body))
    {needs : List Text} {current : Text} (hcurrent : current ∈ needs) :
    r.Alike depth depth' (arm body a current) (arm body' a current) needs
      fun x => [x.1, x.2.node] := by
  refine ((append_alike .conditional (conditionLabel a.condition)).of_mem hcurrent).bind
    fun diamond => ?_
  refine (branch_alike hbody (by simp) "Yes".toList).bind fun exit => ?_
  exact Alike.pure (by simp)

theorem furtherArms_alike {arms : List Arm}
    (hbody : ∀ a ∈ arms, r.AlikeFrom depth depth' (body a.body) (body' a.body)) {needs : List Text}
    {diamond : Text} {exits : List (Cursor Text)} (hdiamond : diamond ∈ needs)
    (hexits : ∀ exit ∈ exits, exit.node ∈ needs) :
    r.Alike depth depth' (furtherArms body diamond exits arms)
      (furtherArms body' diamond exits arms) needs fun x => x.1 :: x.2.map Cursor.node := by
  induction arms generalizing diamond exits needs with
  | nil =>
      refine Alike.pure fun id hid => ?_
      rcases List.mem_cons.mp hid with rfl | hid
      · exact hdiamond
      · obtain ⟨exit, hexit, rfl⟩ := List.mem_map.mp hid
        exact hexits exit hexit
  | cons a arms ih =>
      refine (hold_alike hdiamond "No".toList).bind fun _ => ?_
      refine (arm_alike (hbody a List.mem_cons_self) (by simp [hdiamond])).bind fun x => ?_
      refine ih (fun other hother => hbody other (List.mem_cons_of_mem _ hother)) (by simp) ?_
      intro exit hexit
      rcases List.mem_cons.mp hexit with rfl | hexit
      · simp
      · simp [hexits exit hexit]

theorem joins_alike {needs : List Text} {exits : List (Cursor Text)} {joined : Cursor Text}
    (hexits : ∀ exit ∈ exits, exit.node ∈ needs) (hjoined : joined.node ∈ needs) :
    r.Alike depth depth' (joins exits joined) (joins exits joined) needs fun x => [x.node] := by
  induction exits generalizing joined needs with
  | nil => exact Alike.pure (by simp [hjoined])
  | cons exit exits ih =>
      have hexit := hexits exit List.mem_cons_self
      refine (addNode_alike .join "End if".toList).bind fun join => ?_
      refine (link_alike (by simp [hexit]) (by simp) exit.label).bind fun _ => ?_
      refine (link_alike (by simp [hjoined]) (by simp) joined.label).bind fun _ => ?_
      refine ih (fun other hother => ?_) (by simp)
      simp [hexits other (List.mem_cons_of_mem _ hother)]

/-- What a conditional draws behind the diamond of its first arm. -/
def behindDiamond (body : List Text → Text → Drawing Text) (yesBody : List Text) (arms : List Arm)
    (elseBody : List Text) (diamond : Text) : Drawing Text := do
  let exit ← branch body yesBody diamond "Yes".toList
  let (last, exits) ← furtherArms body diamond [exit] arms
  let otherwise ← branch body elseBody last "No".toList
  let joined ← joins exits otherwise
  return joined.node

theorem conditional_eq (body : List Text → Text → Drawing Text) (first : Arm) (more : List Arm)
    (elseBody : List Text) (current : Text) :
    conditional body first more elseBody current =
      append current .conditional (conditionLabel first.condition) >>=
        behindDiamond body first.body more elseBody := by
  simp only [conditional, arm, bind_assoc, pure_bind]
  rfl

theorem behindDiamond_alike {arms : List Arm} {yesBody elseBody : List Text}
    (hyes : r.AlikeFrom depth depth' (body yesBody) (body' yesBody))
    (harms : ∀ a ∈ arms, r.AlikeFrom depth depth' (body a.body) (body' a.body))
    (helse : r.AlikeFrom depth depth' (body elseBody) (body' elseBody)) {needs : List Text}
    {diamond : Text} (hdiamond : diamond ∈ needs) :
    r.Alike depth depth' (behindDiamond body yesBody arms elseBody diamond)
      (behindDiamond body' yesBody arms elseBody diamond) needs fun id => [id] := by
  refine (branch_alike hyes hdiamond "Yes".toList).bind fun exit => ?_
  refine (furtherArms_alike harms (by simp [hdiamond]) (by simp)).bind fun x => ?_
  refine (branch_alike helse (by simp) "No".toList).bind fun otherwise => ?_
  refine (joins_alike (fun exit hexit => ?_) (by simp)).bind fun joined => ?_
  · simp only [List.mem_append, List.mem_cons, List.mem_map]
    exact Or.inr (Or.inl (Or.inr ⟨exit, hexit, rfl⟩))
  · exact Alike.pure (by simp)

theorem conditional_alike {first : Arm} {more : List Arm} {elseBody : List Text}
    (hbody : ∀ ls ∈ (first :: more).map Arm.body ++ [elseBody],
      r.AlikeFrom depth depth' (body ls) (body' ls)) :
    r.AlikeFrom depth depth' (conditional body first more elseBody)
      (conditional body' first more elseBody) := by
  intro current
  rw [conditional_eq, conditional_eq]
  refine (append_alike .conditional (conditionLabel first.condition) current).bind fun diamond => ?_
  refine behindDiamond_alike (hbody _ (by simp)) (fun a ha => hbody _ ?_) (hbody _ (by simp))
    (by simp)
  exact List.mem_append_left _ (List.mem_map_of_mem (List.mem_cons_of_mem _ ha))

theorem loop_alike {ls : List Text} (hbody : r.AlikeFrom depth depth' (body ls) (body' ls))
    (keyword condition : Text) :
    r.AlikeFrom depth depth' (loop body keyword condition ls)
      (loop body' keyword condition ls) := by
  intro current
  refine (append_alike .loop (keyword ++ ' ' :: condition) current).bind fun diamond => ?_
  refine (hbody.of_mem (by simp)).bind fun exit => ?_
  refine (link_alike (by simp) (by simp) []).bind fun _ => ?_
  exact Alike.pure (by simp)

theorem statement_alike {s : Statement}
    (hbody : ∀ ls ∈ s.bodies, r.AlikeFrom depth depth' (body ls) (body' ls)) :
    r.AlikeFrom depth depth' (statement body · s) (statement body' · s) := by
  cases s with
  | function name line => exact append_alike .function _
  | conditional first more elseBody line => exact conditional_alike hbody
  | loop keyword condition ls line =>
      exact loop_alike (hbody ls List.mem_cons_self) keyword condition
  | «variable» content line => exact plain_alike content
  | result value line => exact append_alike .result _
  | plain content line => exact plain_alike content

theorem block_alike {statements : List Statement}
    (hbody : ∀ s ∈ statements, ∀ ls ∈ s.bodies, r.AlikeFrom depth depth' (body ls) (body' ls)) :
    r.AlikeFrom depth depth' (block body statements) (block body' statements) :=
  sequence_alike fun s hs => statement_alike (hbody s hs)

end Bodies

/-! ## Bodies -/

/-- Alike one level deeper, alike inside. -/
theorem inside_alike {m m' : Drawing α} {needs : List Text} {gives : α → List Text}
    (h : r.Alike (depth + 1) (depth' + 1) m m' needs gives) :
    r.Alike depth depth' (inside m) (inside m') needs gives := by
  intro b hb hholds hneeds
  have hdeep := h { b with depth := b.depth + 1 } (by rw [hb]) (r.holds_depth _ hholds) hneeds
  rw [inside_run, inside_run]
  simp only at hdeep ⊢
  generalize m.run { b with depth := b.depth + 1 } = s, m'.run { b with depth := depth' + 1 } = s'
    at hdeep
  cases hdeep with
  | refused reason after hdepth hrefuse =>
      exact .refused reason { after with depth := after.depth - 1 } (by simp [hdepth]) hrefuse
  | done x after hdepth hholds' hkept hgives =>
      exact .done x { after with depth := after.depth - 1 } (by simp [hdepth])
        (r.holds_depth _ hholds') hkept hgives

end Regime

/-- An empty body draws nothing, at the bound on nesting too. -/
theorem lines_nil (room : Nat) (current : Text) : lines room [] current = pure current := by
  have hempty : Source.statements [] = [] := by rw [Source.statements]
  funext b
  cases room with
  | zero => rfl
  | succ room =>
      show (lines (room + 1) [] current).run b = _
      rw [lines, EStateM.run_bind, EStateM.run_get]
      simp only
      split
      · rfl
      · rw [hempty, inside_run]
        rfl

/-- Above the bound on nesting a body is read. -/
theorem lines_run (room : Nat) (ls : List Text) (current : Text) {b : Builder}
    (hb : b.depth < maxNesting) :
    (lines (room + 1) ls current).run b =
      (inside (block (lines room) (Source.statements ls) current)).run b := by
  have hlt : ¬ maxNesting ≤ b.depth := Nat.not_le_of_lt hb
  rw [lines, EStateM.run_bind, EStateM.run_get]
  simp only [if_neg hlt]

namespace Regime

variable {r : Regime}

/-- The lines of a body are drawn alike at two depths that both leave the levels it takes. -/
theorem lines_alike {levels : Nat} {ls : List Text} (hfits : Source.Fits levels ls)
    {depth depth' room room' : Nat} (hdepth : levels ≤ maxNesting - depth)
    (hdepth' : levels ≤ maxNesting - depth') (hroom : maxNesting ≤ depth + room)
    (hroom' : maxNesting ≤ depth' + room') :
    r.AlikeFrom depth depth' (lines room ls) (lines room' ls) := by
  induction levels generalizing ls depth depth' room room' with
  | zero =>
      obtain rfl : ls = [] := hfits
      intro current
      rw [lines_nil, lines_nil]
      exact Alike.pure (by simp)
  | succ levels ih =>
      -- There is a level left, so neither the room nor the depth is used up.
      obtain ⟨room, rfl⟩ : ∃ n, room = n + 1 := ⟨room - 1, by omega⟩
      obtain ⟨room', rfl⟩ : ∃ n, room' = n + 1 := ⟨room' - 1, by omega⟩
      have hblock : r.AlikeFrom (depth + 1) (depth' + 1)
          (block (lines room) (Source.statements ls))
          (block (lines room') (Source.statements ls)) :=
        block_alike fun s hs inner hinner =>
          ih (hfits s hs inner hinner) (by omega) (by omega) (by omega) (by omega)
      intro current b hb hholds hneeds
      rw [lines_run room ls current (by omega), lines_run room' ls current (by simp only; omega)]
      exact inside_alike (hblock current) b hb hholds hneeds

end Regime

end Flowchart
