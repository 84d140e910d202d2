import Flowchart.Proofs.Source.Reading
import Flowchart.Proofs.Text.Cuts

/-!
# Reading by positions

`readAt` reads from the window of lines that begins at a position. Here the same reading is written
out line by line: each body and each `else` is looked for at the position that the reading has come
to, and a line that is not there ends the reading without a result. `ReadsAt` says that a statement
is read so, and `AlternativesAt` that the arms behind a conditional are, however many there are.

Main statement: `reads_at`, from every position of a line, counted from either end, the reading ends
without a failure and in one way only, and it has gone on, to the end of the lines at most. So the
lines are read from the first to the last (`ReadsAll`).
-/

set_option autoImplicit false

namespace Flowchart.Source

open Text

/-! ## Reading line by line -/

/-- The line at a position; nothing when no line has it. -/
def lineAt? (lines : List Text) (position : Int) : Option Text :=
  if 0 ≤ position then lines[position.toNat]?
  else if position.natAbs ≤ lines.length then lines[lines.length - position.natAbs]?
  else none

/-- The word `for` or `while` that a line begins with. -/
def loopWord? (line : Text) : Option Text :=
  ["for".toList, "while".toList].find? fun word => (afterWord? word line).isSome

/-- The alternatives behind a body, looked for from a position on: the arms, the lines after the
last `else`, and the position behind them. -/
inductive AlternativesAt (lines : List Text) :
    (position : Int) → (trailing : Text) → List Arm → List Text → (next : Int) → Prop where
  | none {position next : Int} {trailing : Text}
      (helse : elseAt lines position trailing = .ok (none, next)) :
      AlternativesAt lines position trailing [] [] next
  | last {position behind next : Int} {trailing header trailing' : Text} {body : List Text}
      (helse : elseAt lines position trailing = .ok (some header, behind))
      (hkind : lineKind header ≠ .conditional)
      (hbody : bodyAt lines behind header = .ok (body, next, trailing')) :
      AlternativesAt lines position trailing [] body next
  | arm {position behind next last : Int} {trailing header trailing' : Text} {body : List Text}
      {arms : List Arm} {elseBody : List Text}
      (helse : elseAt lines position trailing = .ok (some header, behind))
      (hkind : lineKind header = .conditional)
      (hbody : bodyAt lines behind (parenGroup header).2 = .ok (body, next, trailing'))
      (hmore : AlternativesAt lines next trailing' arms elseBody last) :
      AlternativesAt lines position trailing
        (⟨orPlaceholder (parenGroup header).1, body⟩ :: arms) elseBody last

/-- The statement that is read at a position, unless its line is skipped, and the position behind
it. -/
inductive ReadsAt (lines : List Text) :
    (position : Int) → Option Statement → (next : Int) → Prop where
  | skipped {position : Int} {line : Text} (hline : lineAt? lines position = some line)
      (hkind : lineKind line = .skipped) : ReadsAt lines position none (position + 1)
  | function {position : Int} {line : Text} (hline : lineAt? lines position = some line)
      (hkind : lineKind line = .function) :
      ReadsAt lines position
        (some (.function ((functionName? line).getD "anonymous".toList) line)) (position + 1)
  | conditional {position behind next : Int} {line trailing : Text} {body : List Text}
      {arms : List Arm} {elseBody : List Text} (hline : lineAt? lines position = some line)
      (hkind : lineKind line = .conditional)
      (hbody : bodyAt lines (position + 1) (parenGroup line).2 = .ok (body, behind, trailing))
      (hothers : AlternativesAt lines behind trailing arms elseBody next) :
      ReadsAt lines position
        (some (.conditional ⟨orPlaceholder (parenGroup line).1, body⟩ arms elseBody line)) next
  | loop {position next : Int} {line keyword trailing : Text} {body : List Text}
      (hline : lineAt? lines position = some line) (hkind : lineKind line = .loop)
      (hkeyword : loopWord? line = some keyword)
      (hbody : bodyAt lines (position + 1) (parenGroup line).2 = .ok (body, next, trailing)) :
      ReadsAt lines position (some (.loop keyword (parenGroup line).1 body line)) next
  | variable {position : Int} {line : Text} (hline : lineAt? lines position = some line)
      (hkind : lineKind line = .variable) :
      ReadsAt lines position (some (.variable (stripSemicolon line) line)) (position + 1)
  | result {position : Int} {line : Text} (hline : lineAt? lines position = some line)
      (hkind : lineKind line = .result) :
      ReadsAt lines position (some (.result (returnValue line) line)) (position + 1)
  | plain {position : Int} {line : Text} (hline : lineAt? lines position = some line)
      (hkind : lineKind line = .plain) :
      ReadsAt lines position (some (.plain line line)) (position + 1)

/-- The statements that are read from a position on, up to the end of the lines. -/
inductive ReadsAll (lines : List Text) : (position : Int) → List Statement → Prop where
  | stop {position : Int} (hend : lines.length ≤ position) : ReadsAll lines position []
  | next {position behind : Int} {s : Option Statement} {more : List Statement}
      (hline : position < lines.length) (hread : ReadsAt lines position s behind)
      (hmore : ReadsAll lines behind more) : ReadsAll lines position (s.toList ++ more)

variable {lines window rest : List Text} {position : Int}

/-! ## How far a reading has come -/

theorem advance_cons (position : Int) (line : Text) (below : List Text) :
    advance position (line :: below) below = position + 1 := by
  unfold advance
  rw [List.length_cons]
  omega

/-- Two readings, one behind the other, come as far as both together. -/
theorem advance_advance {first second third : List Text} (h : second <:+ first)
    (h' : third <:+ second) :
    advance (advance position first second) second third = advance position first third := by
  have hle := h.length_le
  have hle' := h'.length_le
  unfold advance
  omega

/-- A reading that begins below a line comes as far as one that begins with the line. -/
theorem advance_below {line : Text} {below rest : List Text} (h : rest <:+ below) :
    advance (position + 1) below rest = advance position (line :: below) rest := by
  rw [← advance_cons position line below, advance_advance (List.suffix_cons line below) h]

/-! ## Windows -/

/-- A position in the lines or at their end, counted from either end, and the window there. -/
structure Sees (lines : List Text) (position : Int) (window : List Text) : Prop where
  low : -(lines.length : Int) ≤ position
  high : position ≤ lines.length
  opens : window? lines position = some window

/-- A window is an end of the lines taken twice. -/
theorem window?_eq (hlow : -(lines.length : Int) ≤ position) :
    window? lines position = some ((lines ++ lines).drop (lines.length + position).toNat) := by
  unfold window?
  by_cases hnonneg : 0 ≤ position
  · obtain ⟨n, rfl⟩ := Int.eq_ofNat_of_zero_le hnonneg
    rw [if_pos hnonneg, show ((lines.length : Int) + n).toNat = lines.length + n by omega,
      List.drop_length_add_append]
    rfl
  · have hle : (lines.length + position).toNat ≤ lines.length := by omega
    rw [if_neg hnonneg, if_pos (by omega), List.drop_append_of_le_length hle,
      show lines.length - position.natAbs = (lines.length + position).toNat by omega]

namespace Sees

theorem eq_drop (h : Sees lines position window) :
    window = (lines ++ lines).drop (lines.length + position).toNat :=
  Option.some.inj (h.opens.symm.trans (window?_eq h.low))

/-- A window reaches to the end of the lines. -/
theorem length_eq (h : Sees lines position window) : position + window.length = lines.length := by
  have hlow := h.low
  have hhigh := h.high
  rw [h.eq_drop, List.length_drop, List.length_append]
  omega

/-- A reading that leaves an end of its window sees that end from where it has come to. -/
theorem goOn (h : Sees lines position window) (hrest : rest <:+ window) :
    Sees lines (advance position window rest) rest := by
  have hlow := h.low
  have hlength := h.length_eq
  have hle := hrest.length_le
  have hstep : advance position window rest = position + (window.length - rest.length : Nat) := rfl
  have htwice : rest <:+ lines ++ lines := by
    refine hrest.trans ?_
    rw [h.eq_drop]
    exact List.drop_suffix _ _
  have hplace : (lines.length + advance position window rest).toNat =
      (lines ++ lines).length - rest.length := by
    rw [List.length_append]
    omega
  refine ⟨by omega, by omega, ?_⟩
  rw [window?_eq (by omega), hplace, ← List.suffix_iff_eq_drop.mp htwice]

/-- The first line of a window is the line at its position. -/
theorem lineAt?_eq {line : Text} {below : List Text} (h : Sees lines position (line :: below)) :
    lineAt? lines position = some line := by
  have hopens := h.opens
  unfold window? at hopens
  unfold lineAt?
  by_cases hnonneg : 0 ≤ position
  · rw [if_pos hnonneg] at hopens ⊢
    rw [← List.head?_drop, Option.some.inj hopens]
    rfl
  · have hlow := h.low
    have hbefore : position.natAbs ≤ lines.length := by omega
    have hplace : lines.length - position.natAbs < lines.length := by omega
    rw [if_neg hnonneg, if_pos hbefore] at hopens ⊢
    rw [List.drop_eq_getElem_cons hplace] at hopens
    rw [List.getElem?_eq_getElem hplace]
    exact congrArg some (List.cons.inj (Option.some.inj hopens)).1

/-- The line below the first is at the next position. -/
theorem below {line : Text} {below : List Text} (h : Sees lines position (line :: below)) :
    Sees lines (position + 1) below := by
  have hsees := h.goOn (List.suffix_cons line below)
  rwa [advance_cons] at hsees

/-- A body is found at every position. -/
theorem bodyAt_eq (h : Sees lines position window) (inline : Text) :
    bodyAt lines position inline =
      .ok ((bodyAfter inline window).lines,
        advance position window (bodyAfter inline window).rest,
        (bodyAfter inline window).trailing) := by
  unfold bodyAt windowIf
  rw [h.opens]
  rfl

/-- An `else` is looked for at every position. -/
theorem elseAt_eq (h : Sees lines position window) (trailing : Text) :
    elseAt lines position trailing =
      .ok ((elseAfter trailing window).1,
        advance position window (elseAfter trailing window).2) := by
  unfold elseAt windowIf
  rw [h.opens]
  rfl

/-- The statement that is read at a position is the one that begins its window. -/
theorem readAt_eq {line : Text} {below : List Text} (h : Sees lines position (line :: below)) :
    readAt lines position =
      .ok ((read line below).1, advance position (line :: below) (read line below).2) := by
  unfold readAt
  rw [h.opens]

end Sees

/-- From the position of a line that line is seen. -/
theorem exists_sees_line (hlow : -(lines.length : Int) ≤ position)
    (hhigh : position < lines.length) : ∃ line below, Sees lines position (line :: below) := by
  have h : Sees lines position ((lines ++ lines).drop (lines.length + position).toNat) :=
    ⟨hlow, Int.le_of_lt hhigh, window?_eq hlow⟩
  cases hwindow : (lines ++ lines).drop (lines.length + position).toNat with
  | nil =>
      have hlength := h.length_eq
      rw [hwindow, List.length_nil] at hlength
      omega
  | cons line below => exact ⟨line, below, hwindow ▸ h⟩

/-! ## Positions counted from the first line -/

section FromFirst

variable {line : Text} {below : List Text} {i : Nat}

theorem readAt_of_drop (h : lines.drop i = line :: below) :
    readAt lines i =
      .ok ((read line below).1, advance i (line :: below) (read line below).2) := by
  have hwindow : window? lines i = some (line :: below) := by
    rw [← h]
    rfl
  unfold readAt
  rw [hwindow]

/-- What is read at a position is read from the line there and those below it. -/
theorem drop_of_readAt {s : Option Statement} {n : Int} (h : readAt lines i = .ok (s, n)) :
    ∃ line below, lines.drop i = line :: below ∧ s = (read line below).1 ∧
      n = advance i (line :: below) (read line below).2 := by
  cases hdrop : lines.drop i with
  | nil =>
      have hwindow : window? lines i = some [] := by
        rw [← hdrop]
        rfl
      unfold readAt at h
      rw [hwindow] at h
      cases h
  | cons line below =>
      rw [readAt_of_drop hdrop] at h
      obtain ⟨rfl, rfl⟩ := Prod.mk.inj (Except.ok.inj h)
      exact ⟨line, below, rfl, rfl, rfl⟩

end FromFirst

/-! ## Reading from every position -/

/-- A keyword with a parenthesis behind it is a word. -/
theorem isSome_afterWord?_of_opensGroup {keyword line : Text} (h : opensGroup keyword line = true) :
    (afterWord? keyword line).isSome := by
  obtain ⟨behind, hbehind, hopen⟩ := (Option.any_eq_true ..).mp h
  have hends : wordEnds behind = true := by
    cases behind with
    | nil => rfl
    | cons c t =>
        show (!isWord c) = true
        by_cases hblank : isBlank c = true
        · have hword : isWord c ≠ true := fun hword => by
            rw [isBlank_of_isWord hword] at hblank
            cases hblank
          rw [Bool.eq_false_iff.mpr hword]
          rfl
        · rw [stripLeft_cons (Bool.eq_false_iff.mpr hblank)] at hopen
          obtain ⟨rest, hrest⟩ := Option.isSome_iff_exists.mp hopen
          obtain ⟨rfl, _⟩ := List.cons.inj (after?_eq_some_iff.mp hrest)
          decide
  rw [afterWord?, hbehind, Option.filter_some, if_pos hends]
  rfl

/-- The word that a loop begins with is its keyword. -/
theorem loopWord?_of_loopKeyword? {line keyword : Text} (h : loopKeyword? line = some keyword) :
    loopWord? line = some keyword := by
  have hword := isSome_afterWord?_of_opensGroup (opensGroup_of_loopKeyword? h).1
  have hmem := List.mem_of_find?_eq_some h
  simp only [List.mem_cons, List.not_mem_nil, or_false] at hmem
  unfold loopWord?
  rcases hmem with rfl | rfl
  · simp only [List.find?, hword]
  · have hfor : (afterWord? "for".toList line).isSome = false := by
      obtain ⟨behind, hbehind⟩ := Option.isSome_iff_exists.mp hword
      have hline := after?_eq_some_iff.mp (Option.filter_eq_some_iff.mp hbehind).1
      rw [hline]
      rfl
    simp only [List.find?, hfor, hword]

/-- The alternatives behind a body are read by positions. -/
theorem Sees.alternativesAt (h : Sees lines position window) (trailing : Text) :
    AlternativesAt lines position trailing (alternatives trailing window).arms
      (alternatives trailing window).elseBody
      (advance position window (alternatives trailing window).rest) := by
  induction trailing, window using alternatives.induct generalizing position with
  | case1 trailing window rest hnone =>
      have helse := h.elseAt_eq trailing
      rw [hnone] at helse
      rw [alternatives_of_none hnone]
      exact .none helse
  | case2 trailing window header rest hsome hkind group body _ =>
      rename_i ih
      have hrest := elseAfter_rest_suffix trailing window
      have helse := h.elseAt_eq trailing
      rw [hsome] at hrest helse
      have hbehind := h.goOn hrest
      have hbody := bodyAfter_rest_suffix group.2 rest
      have hothers := alternatives_rest_suffix body.trailing body.rest
      have hmore := ih (hbehind.goOn hbody)
      rw [advance_advance hbody hothers, advance_advance hrest (hothers.trans hbody)] at hmore
      rw [alternatives_of_arm hsome hkind rfl]
      exact .arm helse hkind (hbehind.bodyAt_eq group.2) hmore
  | case3 trailing window header rest hsome hkind =>
      have hrest := elseAfter_rest_suffix trailing window
      have helse := h.elseAt_eq trailing
      rw [hsome] at hrest helse
      have hbody := (h.goOn hrest).bodyAt_eq header
      rw [advance_advance hrest (bodyAfter_rest_suffix header rest)] at hbody
      rw [alternatives_of_last hsome hkind rfl]
      exact .last helse hkind hbody

/-- A statement is read by positions. -/
theorem Sees.readsAt {line : Text} {below : List Text} (h : Sees lines position (line :: below)) :
    ReadsAt lines position (read line below).1
      (advance position (line :: below) (read line below).2) := by
  have hline := h.lineAt?_eq
  have hnext := advance_cons position line below
  cases hkind : lineKind line with
  | skipped =>
      rw [read, hkind, hnext]
      exact .skipped hline hkind
  | function =>
      rw [read, hkind, hnext]
      exact .function hline hkind
  | conditional =>
      rw [read_conditional hkind rfl rfl]
      have hbelow := h.below
      have hbody := bodyAfter_rest_suffix (parenGroup line).2 below
      have hothers := alternatives_rest_suffix
        (bodyAfter (parenGroup line).2 below).trailing (bodyAfter (parenGroup line).2 below).rest
      have hmore :=
        (hbelow.goOn hbody).alternativesAt (bodyAfter (parenGroup line).2 below).trailing
      rw [advance_advance hbody hothers, advance_below (hothers.trans hbody)] at hmore
      exact .conditional hline hkind (hbelow.bodyAt_eq (parenGroup line).2) hmore
  | loop =>
      obtain ⟨keyword, hkeyword⟩ := exists_loopKeyword? hkind
      have hbody := h.below.bodyAt_eq (parenGroup line).2
      rw [advance_below (bodyAfter_rest_suffix (parenGroup line).2 below)] at hbody
      rw [read_loop hkind hkeyword rfl]
      exact .loop hline hkind (loopWord?_of_loopKeyword? hkeyword) hbody
  | «variable» =>
      rw [read, hkind, hnext]
      exact .variable hline hkind
  | result =>
      rw [read, hkind, hnext]
      exact .result hline hkind
  | plain =>
      rw [read, hkind, hnext]
      exact .plain hline hkind

/-! ## Nothing else is read -/

theorem Sees.exists_elseAfter (h : Sees lines position window) {trailing : Text}
    {header : Option Text} {next : Int}
    (helse : elseAt lines position trailing = .ok (header, next)) :
    ∃ rest, elseAfter trailing window = (header, rest) ∧ next = advance position window rest ∧
      rest <:+ window := by
  have heq := Except.ok.inj ((h.elseAt_eq trailing).symm.trans helse)
  obtain ⟨rfl, rfl⟩ := Prod.mk.inj heq
  exact ⟨_, rfl, rfl, elseAfter_rest_suffix trailing window⟩

theorem Sees.exists_bodyAfter (h : Sees lines position window) {inline trailing : Text}
    {body : List Text} {next : Int}
    (hbody : bodyAt lines position inline = .ok (body, next, trailing)) :
    ∃ rest, bodyAfter inline window = ⟨body, trailing, rest⟩ ∧
      next = advance position window rest ∧ rest <:+ window := by
  have heq := Except.ok.inj ((h.bodyAt_eq inline).symm.trans hbody)
  obtain ⟨rfl, hmore⟩ := Prod.mk.inj heq
  obtain ⟨rfl, rfl⟩ := Prod.mk.inj hmore
  exact ⟨_, rfl, rfl, bodyAfter_rest_suffix inline window⟩

/-- The alternatives that are read by positions are those of the window. -/
theorem Sees.exists_alternatives (h : Sees lines position window) {trailing : Text}
    {arms : List Arm} {elseBody : List Text} {next : Int}
    (halternatives : AlternativesAt lines position trailing arms elseBody next) :
    ∃ rest, alternatives trailing window = ⟨arms, elseBody, rest⟩ ∧
      next = advance position window rest ∧ rest <:+ window := by
  induction halternatives generalizing window with
  | none helse =>
      obtain ⟨rest, hnone, rfl, hrest⟩ := h.exists_elseAfter helse
      exact ⟨rest, alternatives_of_none hnone, rfl, hrest⟩
  | last helse hkind hbody =>
      obtain ⟨behind, hsome, rfl, hbehind⟩ := h.exists_elseAfter helse
      obtain ⟨rest, hafter, rfl, hrest⟩ := (h.goOn hbehind).exists_bodyAfter hbody
      exact ⟨rest, alternatives_of_last hsome hkind hafter, advance_advance hbehind hrest,
        hrest.trans hbehind⟩
  | arm helse hkind hbody _ ih =>
      obtain ⟨behind, hsome, rfl, hbehind⟩ := h.exists_elseAfter helse
      have hsees := h.goOn hbehind
      obtain ⟨below, hafter, rfl, hbelow⟩ := hsees.exists_bodyAfter hbody
      obtain ⟨rest, hothers, rfl, hrest⟩ := ih (hsees.goOn hbelow)
      refine ⟨rest, ?_, ?_, hrest.trans (hbelow.trans hbehind)⟩
      · rw [alternatives_of_arm hsome hkind hafter, hothers]
      · rw [advance_advance hbelow hrest, advance_advance hbehind (hrest.trans hbelow)]

/-- What is read by positions is what is read. -/
theorem Sees.eq_of_readsAt {line : Text} {below : List Text}
    (h : Sees lines position (line :: below)) {s : Option Statement} {next : Int}
    (hread : ReadsAt lines position s next) :
    s = (read line below).1 ∧ next = advance position (line :: below) (read line below).2 := by
  have hfirst : ∀ {line'}, lineAt? lines position = some line' → line' = line :=
    fun hline => Option.some.inj (hline.symm.trans h.lineAt?_eq)
  have hnext := advance_cons position line below
  cases hread with
  | skipped hline hkind
  | function hline hkind
  | «variable» hline hkind
  | result hline hkind
  | plain hline hkind =>
      obtain rfl := hfirst hline
      rw [read, hkind]
      exact ⟨rfl, hnext.symm⟩
  | conditional hline hkind hbody hothers =>
      obtain rfl := hfirst hline
      obtain ⟨behind, hafter, rfl, hbehind⟩ := h.below.exists_bodyAfter hbody
      obtain ⟨rest, hread, rfl, hrest⟩ := (h.below.goOn hbehind).exists_alternatives hothers
      rw [read_conditional hkind hafter hread]
      refine ⟨rfl, ?_⟩
      rw [advance_advance hbehind hrest, advance_below (hrest.trans hbehind)]
  | loop hline hkind hkeyword hbody =>
      obtain rfl := hfirst hline
      obtain ⟨rest, hafter, rfl, hrest⟩ := h.below.exists_bodyAfter hbody
      obtain ⟨word, hword⟩ := exists_loopKeyword? hkind
      obtain rfl := Option.some.inj (hkeyword.symm.trans (loopWord?_of_loopKeyword? hword))
      rw [read_loop hkind hword hafter]
      exact ⟨rfl, advance_below hrest⟩

/-- A reading that begins at a line goes on, and not beyond the end of the lines. -/
theorem Sees.progress {line : Text} {below : List Text} (h : Sees lines position (line :: below)) :
    position < advance position (line :: below) (read line below).2 ∧
      advance position (line :: below) (read line below).2 ≤ lines.length := by
  have hrest := read_rest_suffix line below
  have hle := hrest.length_le
  have hend := (h.goOn (hrest.trans (List.suffix_cons line below))).high
  have hstep : advance position (line :: below) (read line below).2 =
    position + ((line :: below).length - (read line below).2.length : Nat) := rfl
  rw [List.length_cons] at hstep
  omega

/-- The lines of a window are read by positions to the last one. -/
theorem Sees.readsAll (h : Sees lines position window) :
    ReadsAll lines position (statements window) := by
  induction window using statements.induct generalizing position with
  | case1 =>
      have hlength := h.length_eq
      rw [List.length_nil] at hlength
      rw [statements_nil]
      exact .stop (by omega)
  | case2 line below _ ih =>
      have hlength := h.length_eq
      rw [List.length_cons] at hlength
      have hrest := (read_rest_suffix line below).trans (List.suffix_cons line below)
      rw [statements_cons]
      exact .next (by omega) h.readsAt (ih (h.goOn hrest))

/-- From every position of a line just one statement is read, or the line skipped, and the reading
has gone on. So all lines are read from the first one on. -/
theorem reads_at (lines : List Text) :
    (∀ position : Int, -(lines.length : Int) ≤ position → position < lines.length →
      ∃ s next, readAt lines position = .ok (s, next) ∧
        (∀ s' next', ReadsAt lines position s' next' ↔ s' = s ∧ next' = next) ∧
        position < next ∧ next ≤ lines.length) ∧
      ReadsAll lines 0 (statements lines) := by
  constructor
  · intro position hlow hhigh
    obtain ⟨line, below, h⟩ := exists_sees_line hlow hhigh
    refine ⟨_, _, h.readAt_eq, ?_, h.progress⟩
    intro s' next'
    constructor
    · exact h.eq_of_readsAt
    · rintro ⟨rfl, rfl⟩
      exact h.readsAt
  · have hstart : Sees lines 0 lines := ⟨by omega, by omega, rfl⟩
    exact hstart.readsAll

/-- Reading from the last line goes on with the first: the `else if` there is an arm of the
conditional that the last line opens. -/
def wrapped : List Text := ["else if (b) x", "if (a) y"].map String.toList

theorem reads_at_wrapped :
    -(wrapped.length : Int) ≤ -1 ∧ (-1 : Int) < wrapped.length ∧
      ∃ s next, readAt wrapped (-1) = .ok (s, next) ∧
        (∀ s' next', ReadsAt wrapped (-1) s' next' ↔ s' = s ∧ next' = next) ∧
        -1 < next ∧ next ≤ wrapped.length :=
  ⟨by decide, by decide, (reads_at wrapped).1 (-1) (by decide) (by decide)⟩

end Flowchart.Source
