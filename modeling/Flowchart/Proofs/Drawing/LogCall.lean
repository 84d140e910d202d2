import Flowchart.Proofs.Drawing.Fragment
import Flowchart.Proofs.Text.Cuts

/-!
# What is shown of a log call

A log call is the words `console.log`, perhaps blanks, and an argument in parentheses that goes up
to the first closing one. A plain statement with a log call is drawn as a log message that shows the
argument of its first call. Main statement: `logNode_firstCall`, what the message shows, with the
one case in which it is not the argument: an empty argument with another closing parenthesis
somewhere behind it.

The search wants at least one character up to the closing parenthesis that it stops at
(`upToClosing_eq_some_iff`), so it passes over the parenthesis of an empty argument. What the search
finds begins at a call (`exists_beginsCall`), so the part of the text before the first call is
passed over (`logArgument?_firstCall`).
-/

set_option autoImplicit false

namespace Flowchart

open Text

/-! ## Log calls -/

/-- The words that a log call begins with. -/
def logWords : Text := "console.log".toList

/-- A text begins with a log call: `argument` stands between its parentheses and `rest` behind
them. -/
structure BeginsCall (argument rest t : Text) : Prop where
  text : ∃ blanks, isAllBlank blanks = true ∧
    t = logWords ++ (blanks ++ '(' :: (argument ++ ')' :: rest))
  closed : ')' ∉ argument

/-- The first log call of a text: `before`, `argument` and `rest` stand before it, between its
parentheses and behind them. -/
structure FirstCall (before argument rest t : Text) : Prop where
  call : ∃ u, t = before ++ u ∧ BeginsCall argument rest u
  first : ∀ k < before.length, ¬ ∃ argument' rest', BeginsCall argument' rest' (t.drop k)

variable {before argument rest t : Text}

/-- A text that begins with a log call begins with its words. -/
theorem BeginsCall.startsWith (h : BeginsCall argument rest t) : startsWith logWords t = true := by
  obtain ⟨blanks, -, rfl⟩ := h.text
  exact startsWith_iff.mpr (List.prefix_append _ _)

/-! ## Up to a closing parenthesis -/

theorem goOn_eq_some_iff :
    upToClosing.goOn t = some argument ↔
      ∃ rest, t = argument ++ ')' :: rest ∧ ')' ∉ argument ∧ '\n' ∉ argument := by
  induction t generalizing argument with
  | nil => simp [upToClosing.goOn]
  | cons c t ih =>
      unfold upToClosing.goOn
      by_cases hclosing : c = ')'
      · rw [if_pos hclosing, hclosing]
        constructor
        · intro h
          obtain rfl := Option.some.inj h
          exact ⟨t, rfl, List.not_mem_nil, List.not_mem_nil⟩
        · rintro ⟨rest, htext, hclosed, -⟩
          cases argument with
          | nil => rfl
          | cons d argument =>
              -- A character of the argument is no closing parenthesis.
              obtain ⟨rfl, -⟩ := List.cons.inj htext
              exact absurd List.mem_cons_self hclosed
      · rw [if_neg hclosing]
        by_cases hfeed : c = '\n'
        · rw [if_pos hfeed]
          constructor
          · intro h
            cases h
          · rintro ⟨rest, htext, -, hline⟩
            cases argument with
            | nil => exact absurd (List.cons.inj htext).1 hclosing
            | cons d argument =>
                obtain ⟨rfl, -⟩ := List.cons.inj htext
                exact absurd (hfeed ▸ List.mem_cons_self) hline
        · rw [if_neg hfeed, Option.map_eq_some_iff]
          constructor
          · rintro ⟨u, hu, rfl⟩
            obtain ⟨rest, rfl, hclosed, hline⟩ := ih.mp hu
            refine ⟨rest, rfl, ?_, ?_⟩
            · exact List.not_mem_cons_of_ne_of_not_mem (Ne.symm hclosing) hclosed
            · exact List.not_mem_cons_of_ne_of_not_mem (Ne.symm hfeed) hline
          · rintro ⟨rest, htext, hclosed, hline⟩
            cases argument with
            | nil => exact absurd (List.cons.inj htext).1 hclosing
            | cons d argument =>
                obtain ⟨rfl, rfl⟩ := List.cons.inj htext
                rw [List.mem_cons, not_or] at hclosed hline
                exact ⟨argument, ih.mpr ⟨rest, rfl, hclosed.2, hline.2⟩, rfl⟩

/-- At least one character is taken, be it a closing parenthesis. -/
theorem upToClosing_eq_some_iff :
    upToClosing t = some argument ↔
      ∃ c u rest, argument = c :: u ∧ t = c :: (u ++ ')' :: rest) ∧
        c ≠ '\n' ∧ ')' ∉ u ∧ '\n' ∉ u := by
  cases t with
  | nil => simp [upToClosing]
  | cons d t =>
      rw [upToClosing]
      by_cases hfeed : d = '\n'
      · rw [if_pos hfeed]
        constructor
        · intro h
          cases h
        · rintro ⟨c, u, rest, -, htext, hc, -⟩
          exact absurd ((List.cons.inj htext).1.symm.trans hfeed) hc
      · rw [if_neg hfeed, Option.map_eq_some_iff]
        constructor
        · rintro ⟨u, hu, rfl⟩
          obtain ⟨rest, rfl, hclosed, hline⟩ := goOn_eq_some_iff.mp hu
          exact ⟨d, u, rest, rfl, rfl, hfeed, hclosed, hline⟩
        · rintro ⟨c, u, rest, rfl, htext, -, hclosed, hline⟩
          obtain ⟨rfl, rfl⟩ := List.cons.inj htext
          exact ⟨u, goOn_eq_some_iff.mpr ⟨rest, rfl, hclosed, hline⟩, rfl⟩

/-! ## The search -/

theorem logArgumentHere?_eq_some_iff :
    logArgumentHere? t = some argument ↔
      ∃ blanks inside, isAllBlank blanks = true ∧ t = logWords ++ (blanks ++ '(' :: inside) ∧
        upToClosing inside = some argument := by
  unfold logArgumentHere?
  rw [Option.bind_eq_some_iff]
  constructor
  · rintro ⟨inside, hinside, hargument⟩
    obtain ⟨u, hu, hopening⟩ := Option.bind_eq_some_iff.mp hinside
    obtain ⟨blanks, hblanks, hsplit, -⟩ := exists_stripLeft u
    rw [after?_eq_some_iff.mp hopening] at hsplit
    refine ⟨blanks, inside, hblanks, ?_, hargument⟩
    rw [after?_eq_some_iff.mp hu, hsplit, List.singleton_append]
    rfl
  · rintro ⟨blanks, inside, hblanks, rfl, hargument⟩
    have hopening : stripLeft (blanks ++ '(' :: inside) = '(' :: inside := by
      apply stripLeft_append_of_head hblanks
      intro c hc
      obtain rfl := Option.some.inj hc
      decide
    refine ⟨inside, ?_, hargument⟩
    show (after? logWords (logWords ++ (blanks ++ '(' :: inside))).bind _ = _
    rw [after?_append, Option.bind_some, hopening]
    rfl

/-- Whatever the search finds begins at a log call. -/
theorem exists_beginsCall (h : logArgumentHere? t = some argument) :
    ∃ argument' rest', BeginsCall argument' rest' t := by
  obtain ⟨blanks, inside, hblanks, rfl, hinside⟩ := logArgumentHere?_eq_some_iff.mp h
  obtain ⟨c, u, rest, -, rfl, -⟩ := upToClosing_eq_some_iff.mp hinside
  have hclosing : ')' ∈ c :: (u ++ ')' :: rest) := by simp
  obtain ⟨argument', rest', hsplit, hclosed⟩ := List.eq_append_cons_of_mem hclosing
  exact ⟨argument', rest', ⟨blanks, hblanks, by rw [hsplit]⟩, hclosed⟩

theorem logArgument?_of_here (h : logArgumentHere? t = some argument) :
    logArgument? t = some argument := by
  cases t with
  | nil => cases h
  | cons c t => rw [logArgument?, h, Option.some_or]

/-- The search passes over what stands before the first log call. -/
theorem logArgument?_append {u : Text}
    (h : ∀ k < before.length, ¬ ∃ argument rest, BeginsCall argument rest ((before ++ u).drop k)) :
    logArgument? (before ++ u) = logArgument? u := by
  induction before with
  | nil => rfl
  | cons c before ih =>
      have hhere : logArgumentHere? (c :: (before ++ u)) = none := by
        rw [Option.eq_none_iff_forall_ne_some]
        intro argument hfound
        exact h 0 (Nat.succ_pos _) (exists_beginsCall hfound)
      have hmore : logArgument? (before ++ u) = logArgument? u := by
        apply ih
        intro k hk
        exact h (k + 1) (Nat.succ_lt_succ hk)
      rw [List.cons_append, logArgument?, hhere, Option.none_or, hmore]

/-- Nothing is found when nothing is found at any place of the text. -/
theorem logArgument?_eq_none (h : ∀ u, u <:+ t → logArgumentHere? u = none) :
    logArgument? t = none := by
  induction t with
  | nil => rfl
  | cons c t ih =>
      rw [logArgument?, h _ (List.suffix_refl _), Option.none_or]
      exact ih fun u hu => h u (hu.trans (List.suffix_cons c t))

/-! ## The first log call -/

/-- What a log message shows of its first call. An empty argument is taken for the beginning of a
longer one if there is another closing parenthesis. -/
def shownArgument (argument rest : Text) : Text :=
  if argument.isEmpty then
    match cutAt ')' rest with
    | some (more, _) => ')' :: more
    | none => []
  else argument

/-- The opening parenthesis of a log call is the first one behind its beginning. -/
theorem opening_not_mem {blanks : Text} (h : isAllBlank blanks = true) :
    '(' ∉ logWords ++ blanks := by
  rw [List.mem_append, not_or]
  refine ⟨by decide, ?_⟩
  intro hmem
  have hblank : isBlank '(' = true := List.all_eq_true.mp h _ hmem
  exact absurd hblank (by decide)

/-- Without a closing parenthesis behind it, a call with an empty argument is no find, and neither
is any other place behind its beginning. -/
theorem logArgument?_of_empty (h : BeginsCall [] rest t) (hrest : ')' ∉ rest) :
    logArgument? t = none := by
  obtain ⟨blanks, hblanks, htext⟩ := h.text
  apply logArgument?_eq_none
  intro u hu
  rw [Option.eq_none_iff_forall_ne_some]
  intro found hfound
  obtain ⟨blanks', inside, -, hcall, hinside⟩ := logArgumentHere?_eq_some_iff.mp hfound
  obtain ⟨c, v, rest', -, rfl, -⟩ := upToClosing_eq_some_iff.mp hinside
  obtain ⟨p, hp⟩ := hu
  have htext' : (logWords ++ blanks) ++ '(' :: ')' :: rest = t := by
    rw [htext, List.append_assoc]
    rfl
  have hp' : (p ++ (logWords ++ blanks')) ++ '(' :: (c :: (v ++ ')' :: rest')) = t := by
    rw [← hp, hcall]
    simp only [List.append_assoc]
  -- The parenthesis that is found open stands no earlier than the first one.
  have hlength : (logWords ++ blanks).length ≤ (p ++ (logWords ++ blanks')).length := by
    by_contra hshort
    have hfound : p ++ (logWords ++ blanks') ++ ['('] <+: t :=
      ⟨c :: (v ++ ')' :: rest'), by rw [← hp', List.append_assoc]; rfl⟩
    have hfirst : logWords ++ blanks <+: t := ⟨'(' :: ')' :: rest, htext'⟩
    have hinside : p ++ (logWords ++ blanks') ++ ['('] <+: logWords ++ blanks := by
      apply List.prefix_of_prefix_length_le hfound hfirst
      rw [List.length_append, List.length_singleton]
      omega
    exact opening_not_mem hblanks (List.IsPrefix.subset hinside (by simp))
  -- So what is found inside stands behind the empty argument, closing parenthesis and all.
  have hbehind : c :: (v ++ ')' :: rest') <:+ ')' :: rest := by
    have hfound : c :: (v ++ ')' :: rest') <:+ t :=
      ⟨p ++ (logWords ++ blanks') ++ ['('], by rw [← hp', List.append_assoc]; rfl⟩
    have hfirst : ')' :: rest <:+ t :=
      ⟨logWords ++ blanks ++ ['('], by rw [← htext', List.append_assoc]; rfl⟩
    apply List.suffix_of_suffix_length_le hfound hfirst
    have hsame := congrArg List.length (hp'.trans htext'.symm)
    simp only [List.length_append, List.length_cons] at hsame hlength ⊢
    omega
  have hmem : ')' ∈ rest := by
    rcases List.suffix_cons_iff.mp hbehind with hequal | hbelow
    · obtain ⟨-, hrest'⟩ := List.cons.inj hequal
      rw [← hrest']
      simp
    · exact hbelow.subset (by simp)
  exact hrest hmem

/-- The search finds the argument of a call on one line, unless it is empty. -/
theorem logArgument?_of_beginsCall (h : BeginsCall argument rest t) (hline : '\n' ∉ t) :
    (logArgument? t).getD [] = shownArgument argument rest := by
  obtain ⟨blanks, hblanks, rfl⟩ := h.text
  simp only [List.mem_append, List.mem_cons, not_or] at hline
  obtain ⟨-, -, -, hargument, -, hrest⟩ := hline
  cases argument with
  | cons c u =>
      have hhere : logArgumentHere? (logWords ++ (blanks ++ '(' :: (c :: u ++ ')' :: rest))) =
          some (c :: u) := by
        have hclosed := h.closed
        rw [List.mem_cons, not_or] at hclosed hargument
        refine logArgumentHere?_eq_some_iff.mpr ⟨blanks, _, hblanks, rfl, ?_⟩
        exact upToClosing_eq_some_iff.mpr
          ⟨c, u, rest, rfl, rfl, Ne.symm hargument.1, hclosed.2, hargument.2⟩
      rw [logArgument?_of_here hhere]
      rfl
  | nil =>
      cases hcut : cutAt ')' rest with
      | none =>
          have hclosing : ')' ∉ rest := by
            intro hmem
            obtain ⟨more, behind, rfl, hmore⟩ := List.eq_append_cons_of_mem hmem
            rw [cutAt_eq_some_iff.mpr ⟨rfl, hmore⟩] at hcut
            cases hcut
          rw [logArgument?_of_empty h hclosing, shownArgument, if_pos List.isEmpty_nil, hcut]
          rfl
      | some found =>
          obtain ⟨more, behind⟩ := found
          obtain ⟨rfl, hmore⟩ := cutAt_eq_some_iff.mp hcut
          -- The parenthesis of the empty argument is the one character that has to be taken.
          have hhere : logArgumentHere?
              (logWords ++ (blanks ++ '(' :: ([] ++ ')' :: (more ++ ')' :: behind)))) =
                some (')' :: more) := by
            rw [List.mem_append, not_or] at hrest
            refine logArgumentHere?_eq_some_iff.mpr ⟨blanks, _, hblanks, rfl, ?_⟩
            exact upToClosing_eq_some_iff.mpr
              ⟨')', more, behind, rfl, rfl, by decide, hmore, hrest.1⟩
          rw [logArgument?_of_here hhere, shownArgument, if_pos List.isEmpty_nil, hcut]
          rfl

/-- A text on one line shows what belongs to its first call. -/
theorem logArgument?_firstCall (h : FirstCall before argument rest t) (hline : '\n' ∉ t) :
    (logArgument? t).getD [] = shownArgument argument rest := by
  obtain ⟨u, rfl, hcall⟩ := h.call
  rw [logArgument?_append h.first]
  rw [List.mem_append, not_or] at hline
  exact logArgument?_of_beginsCall hcall hline.2

theorem FirstCall.stepKind (h : FirstCall before argument rest t) : stepKind t = .log := by
  obtain ⟨u, rfl, hcall⟩ := h.call
  have hwords : hasPart logWords (before ++ u) = true := by
    have hpart := (startsWith_iff.mp hcall.startsWith).isInfix
    exact hasPart_iff.mpr (hpart.trans (List.suffix_append before u).isInfix)
  unfold Flowchart.stepKind
  exact if_pos hwords

theorem FirstCall.not_isAllBlank (h : FirstCall before argument rest t) :
    isAllBlank t = false := by
  obtain ⟨u, rfl, hcall⟩ := h.call
  obtain ⟨blanks, -, rfl⟩ := hcall.text
  rw [← Bool.not_eq_true]
  intro hblank
  have hopening : isBlank '(' = true := List.all_eq_true.mp hblank _ (by simp)
  exact absurd hopening (by decide)

/-! ## The node of a plain statement -/

/-- A sound builder adds one node for a plain statement that is not blank, also when the edge to it
is refused. -/
theorem Builder.Sound.nodes_plain {b : Builder} (hb : b.Sound) (ht : isAllBlank t = false)
    (current : Text) :
    (b.perform (Drawing.plain t current)).1.graph.nodes =
      b.graph.nodes ++
        [nodeOf (Role.ofStepKind (stepKind t)) (b.given + 1) (stepLabel b.limit t)] := by
  have hdraws := plain_draws t ⟨.outer current, []⟩ b hb.calm
  rw [hb.calm.settled rfl, draw_settle_run hb.calm, Part.plain_of_not_isAllBlank b.limit ht,
    Vertex.id_outer] at hdraws
  rw [Builder.perform, hdraws]
  simp only [Part.steps, Part.entrySteps, EStateM.run_bind, EStateM.run_pure]
  rw [follow_next_node hb.calm.numbered, follow_edge_run]
  -- The edge may be refused, but the node is there already.
  cases hadd : (b.extend _).graph.addEdge _ with
  | error reason => rfl
  | ok graph =>
      rw [Graph.addEdge_ok hadd]
      rfl

/-- For a plain statement with the text `t` a builder adds a single node, a log message that shows
`shown`. -/
def Builder.AddsLog (b : Builder) (t current shown : Text) : Prop :=
  (b.perform (Drawing.plain t current)).1.graph.nodes =
    b.graph.nodes ++ [nodeOf .log (b.given + 1) ("Log: ".toList ++ shown)]

theorem Builder.Sound.addsLog {b : Builder} (hb : b.Sound) (h : FirstCall before argument rest t)
    (hline : '\n' ∉ t) (current : Text) :
    b.AddsLog t current (shownArgument argument rest) := by
  unfold AddsLog
  rw [hb.nodes_plain h.not_isAllBlank, stepLabel, h.stepKind, ← logArgument?_firstCall h hline]
  rfl

/-- Of every builder: the log message of a text on one line shows the argument of its first log
call, unless the argument is empty and there is another closing parenthesis. Then it shows what
stands up to that one, the parenthesis of the empty argument included. -/
theorem logNode_firstCall (limit : Int) (direction : Text) (operations : List Operation)
    (current : Text) (h : FirstCall before argument rest t) (hline : '\n' ∉ t) :
    (argument ≠ [] ∨ ')' ∉ rest →
        (Builder.reached limit direction operations).AddsLog t current argument) ∧
      ∀ more behind, argument = [] → rest = more ++ ')' :: behind → ')' ∉ more →
        (Builder.reached limit direction operations).AddsLog t current (')' :: more) := by
  have hb : (Builder.reached limit direction operations).Sound :=
    (Builder.sound_new limit direction).performAll operations
  have hadds := hb.addsLog h hline current
  constructor
  · intro hplain
    have hshown : shownArgument argument rest = argument := by
      by_cases hempty : argument = []
      · have hrest : ')' ∉ rest := hplain.resolve_left fun hne => hne hempty
        have hcut : cutAt ')' rest = none := by
          rw [Option.eq_none_iff_forall_ne_some]
          rintro ⟨more, behind⟩ hcut
          rw [(cutAt_eq_some_iff.mp hcut).1] at hrest
          exact hrest (by simp)
        rw [shownArgument, hempty, if_pos List.isEmpty_nil, hcut]
      · rw [shownArgument, if_neg (by simpa using hempty)]
    rwa [hshown] at hadds
  · rintro more behind rfl rfl hmore
    rwa [shownArgument, if_pos List.isEmpty_nil, cutAt_eq_some_iff.mpr ⟨rfl, hmore⟩] at hadds

/-- A call that is not the first thing on its line, with a blank before its parenthesis and another
call behind it. -/
theorem logNode_firstCall_twice :
    FirstCall "go(); ".toList "f(x".toList "); console.log(y)".toList
        "go(); console.log (f(x)); console.log(y)".toList ∧
      (Builder.reached 25 "TD".toList [.build []]).AddsLog
        "go(); console.log (f(x)); console.log(y)".toList "start1".toList "f(x".toList := by
  have hcall : BeginsCall "f(x".toList "); console.log(y)".toList
      "console.log (f(x)); console.log(y)".toList :=
    ⟨⟨[' '], by decide, rfl⟩, by decide⟩
  have hfirst : FirstCall "go(); ".toList "f(x".toList "); console.log(y)".toList
      "go(); console.log (f(x)); console.log(y)".toList := by
    refine ⟨⟨_, rfl, hcall⟩, ?_⟩
    rintro k hk ⟨argument, rest, hbegins⟩
    have hnone : ∀ k < "go(); ".toList.length, startsWith logWords
        ("go(); console.log (f(x)); console.log(y)".toList.drop k) = false := by decide
    have hstart := hbegins.startsWith
    rw [hnone k hk] at hstart
    cases hstart
  obtain ⟨hshown, -⟩ := logNode_firstCall 25 "TD".toList [.build []] "start1".toList hfirst
    (by decide)
  exact ⟨hfirst, hshown (Or.inl (by decide))⟩

/-- A call without an argument is the first one of this line, and its closing parenthesis and what
stands behind it are shown. -/
theorem logNode_emptyArgument :
    FirstCall [] [] "; f(x)".toList "console.log(); f(x)".toList ∧
      (Graph.ofSource 25 "TD".toList "console.log(); f(x)".toList).nodes[1]? =
        some (nodeOf .log 2 "Log: ); f(x".toList) ∧
      ¬ (Builder.reached 25 "TD".toList [.build []]).AddsLog "console.log(); f(x)".toList
        "start1".toList [] := by
  refine ⟨⟨⟨_, rfl, ⟨⟨[], by decide, rfl⟩, by decide⟩⟩, ?_⟩, ?_, ?_⟩
  · intro k hk
    exact absurd hk (Nat.not_lt_zero k)
  · decide +kernel
  · unfold Builder.AddsLog
    decide

end Flowchart
