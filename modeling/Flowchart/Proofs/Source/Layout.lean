import Flowchart.Proofs.Source.Balance
import Flowchart.Proofs.Source.Reading
import Flowchart.Proofs.Text.Cuts

/-!
# Layouts

The same conditional or loop can be written in many ways: with a brace on the line of the header or
below it, on one line, or without braces, and with an `else` behind a closing brace or below it. A
`Written` is a statement together with one choice for each of its bodies. Main statement: its lines
are read as that statement, and what follows them is read as it would be alone
(`statements_written`).

A written body is read from what stands on the line of its header and from the lines below
(`exists_bodyAfter_write`); an `else` behind it is found in both of its places
(`elseAfter_joined`). The arms of a conditional are then read by induction
(`alternatives_writeElse`).
-/

set_option autoImplicit false

namespace Flowchart

open Text Source

/-! ## Ways to write a body -/

/-- Where something goes that may stand on the line before. -/
inductive Placement where
  | beside
  | below
deriving DecidableEq, Repr

/-- How a body is laid out behind its header. -/
inductive Layout where
  /-- Its lines between two braces, the opening one beside the header or below it. -/
  | braced (opening next : Placement)
  /-- On the line of the header, between braces and separated by semicolons. -/
  | oneLine (next : Placement)
  /-- A single line below the header. -/
  | bare
deriving DecidableEq, Repr

namespace Layout

/-- Where an `else` behind the body goes. -/
def next : Layout → Placement
  | braced _ next => next
  | oneLine next => next
  | bare => .below

/-- The bodies that can be laid out so. -/
def Admits : Layout → List Text → Prop
  | braced _ _, _ => True
  | oneLine _, lines => ∀ line ∈ lines, strip line = line ∧ ';' ∉ line ∧ '}' ∉ line
  | bare, [line] => line ≠ ['{'] ∧ afterWord? "else".toList line = none
  | bare, _ => False

instance : (layout : Layout) → (lines : List Text) → Decidable (layout.Admits lines)
  | braced _ _, _ => inferInstanceAs (Decidable True)
  | oneLine _, lines =>
      inferInstanceAs (Decidable (∀ line ∈ lines, strip line = line ∧ ';' ∉ line ∧ '}' ∉ line))
  | bare, [line] =>
      inferInstanceAs (Decidable (line ≠ ['{'] ∧ afterWord? "else".toList line = none))
  | bare, [] => inferInstanceAs (Decidable False)
  | bare, _ :: _ :: _ => inferInstanceAs (Decidable False)

end Layout

/-- A condition as it stands between the parentheses of a header. -/
structure Condition where
  text : Text
  trimmed : strip text = text
  unbroken : '\n' ∉ text
  balanced : text.Balanced

/-- A body with its layout. -/
structure WrittenBody where
  lines : List Text
  layout : Layout
  ordinary : ∀ line ∈ lines, line ≠ [] ∧ '\n' ∉ line ∧ startsWith ['}'] line = false
  admitted : layout.Admits lines

structure WrittenArm where
  condition : Condition
  condition_ne : condition.text ≠ []
  body : WrittenBody

/-- A conditional or a loop with the layout of its bodies. -/
inductive Written where
  | conditional (first : WrittenArm) (more : List WrittenArm) (last : Option WrittenBody)
  | loop (keyword : Text) (hkeyword : keyword ∈ ["for".toList, "while".toList])
      (condition : Condition) (body : WrittenBody)

/-! ## Writing -/

namespace Placement

/-- What joins a line when the first of `more` is placed. -/
def joined : Placement → List Text → Text
  | beside, next :: _ => ' ' :: next
  | _, _ => []

/-- What is left below that line. -/
def left : Placement → List Text → List Text
  | beside, _ :: more => more
  | _, more => more

/-- A line with the first of `more` beside it or below it; nothing is put beside when there is
nothing to put. -/
def put (p : Placement) (line : Text) (more : List Text) : List Text :=
  (line ++ p.joined more) :: p.left more

end Placement

/-- The header with a condition. -/
def Condition.header (c : Condition) (keyword : Text) : Text :=
  keyword ++ " (".toList ++ c.text ++ ")".toList

/-- A body behind its header, and `more` behind the body. -/
def WrittenBody.write (b : WrittenBody) (header : Text) (more : List Text) : List Text :=
  match b.layout with
  | .braced opening next => opening.put header (['{'] :: (b.lines ++ next.put ['}'] more))
  | .oneLine next =>
      next.put (header ++ " \x7b ".toList ++ join "; ".toList b.lines ++ " \x7d".toList) more
  | .bare => header :: (b.lines ++ more)

def writeElse : List WrittenArm → Option WrittenBody → List Text
  | [], none => []
  | [], some last => last.write "else".toList []
  | arm :: more, last =>
      arm.body.write (arm.condition.header "else if".toList) (writeElse more last)

namespace Written

def lines : Written → List Text
  | conditional first more last =>
      first.body.write (first.condition.header "if".toList) (writeElse more last)
  | loop keyword _ condition body => body.write (condition.header keyword) []

/-- The statement that is written, with the source line it begins on. -/
def statement (line : Text) : Written → Statement
  | conditional first more last =>
      .conditional ⟨first.condition.text, first.body.lines⟩
        (more.map fun arm => ⟨arm.condition.text, arm.body.lines⟩)
        ((last.map WrittenBody.lines).getD []) line
  | loop keyword _ condition body => .loop keyword condition.text body.lines line

/-- Whether an `else` could go on with the statement. -/
def IsOpen : Written → Prop
  | conditional _ _ last => last = none
  | loop _ _ _ _ => False

end Written

/-! ## What stands behind a header -/

/-- What stands on a line behind its header, and the same without blanks: nothing, or a text behind
a blank. -/
inductive Inline : Text → Text → Prop where
  | nothing : Inline [] []
  | text {t : Text} (tight : t.Tight) (unbroken : '\n' ∉ t) : Inline (' ' :: t) t

namespace Inline

variable {inline t : Text}

theorem strip_eq (h : Inline inline t) : strip inline = t := by
  cases h with
  | nothing => rfl
  | text tight unbroken => exact (strip_append (b := [' ']) (by decide) t).trans tight.strip

theorem strip_self (h : Inline inline t) : strip t = t := by
  cases h with
  | nothing => rfl
  | text tight unbroken => exact tight.strip

theorem unbroken_inline (h : Inline inline t) : '\n' ∉ inline := by
  cases h with
  | nothing => simp
  | text tight unbroken => simp [unbroken]

/-- Behind a tight text, what stands behind a header makes another. -/
theorem tight_append (h : Inline inline t) {s : Text} (hs : s.Tight) : (s ++ inline).Tight := by
  cases h with
  | nothing => simpa using hs
  | text tight unbroken => simpa using Text.tight_append hs.first tight.last [' ']

theorem text_append (h : Inline inline t) {s : Text} (hs : s.Tight) (hunbroken : '\n' ∉ s) :
    Inline (' ' :: (s ++ inline)) (s ++ inline) := by
  refine .text (h.tight_append hs) ?_
  simp [hunbroken, h.unbroken_inline]

end Inline

/-- The first of the lines, if there is one, opens with an `else`. -/
def HeadsElse (more : List Text) : Prop :=
  ∀ line ∈ more.head?, ∃ inline t, line = "else".toList ++ inline ∧ Inline inline t

namespace Source

theorem lastLine?_of_not_mem {t : Text} (h : '\n' ∉ t) : lastLine? t = some t := by
  induction t with
  | nil => rfl
  | cons c t ih =>
      rw [List.mem_cons, not_or] at h
      have hne : c ≠ '\n' := fun heq => h.1 heq.symm
      rw [lastLine?, if_neg hne, ih h.2, Option.map_some]

theorem elseHeader?_else {inline t : Text} (h : Inline inline t) :
    elseHeader? ("else".toList ++ inline) = some t := by
  have hafter : after? "else".toList ("else".toList ++ inline) = some inline :=
    after?_eq_some_iff.mpr rfl
  cases h with
  | nothing => rfl
  | text tight unbroken =>
      have hends : wordEnds (' ' :: t) = true := by
        show (!isWord ' ') = true
        decide
      have hleft : stripLeft (' ' :: t) = stripLeft t := rfl
      rw [elseHeader?, afterWord?, hafter, Option.filter_some, if_pos hends, Option.bind_some,
        hleft, tight.stripLeft, lastLine?_of_not_mem unbroken]

/-! ## Reading a written body -/

/-- An `else` is found beside a body as it is below it. -/
theorem elseAfter_joined {more : List Text} (hmore : HeadsElse more) (p : Placement)
    (rest : List Text) :
    ∃ t, Inline (p.joined more) t ∧
      elseAfter t (p.left more ++ rest) = elseAfter [] (more ++ rest) := by
  cases p with
  | below => exact ⟨[], .nothing, rfl⟩
  | beside =>
      cases more with
      | nil => exact ⟨[], .nothing, rfl⟩
      | cons line more =>
          obtain ⟨inline, t, rfl, hinline⟩ := hmore line rfl
          have helse : Tight "else".toList :=
            ⟨⟨'e', "lse".toList, rfl, by decide⟩, "els".toList, 'e', rfl, by decide⟩
          refine ⟨_, hinline.text_append helse (by decide), ?_⟩
          have hheader := elseHeader?_else hinline
          rw [elseAfter_of_ne (by simp), hheader, List.cons_append, elseAfter_cons hheader]
          rfl

/-- Texts that are joined behind semicolons and blanks are found again when both are cut off. -/
theorem strip_pieces_join {line : Text} {more : List Text}
    (h : ∀ t ∈ line :: more, t.Tight ∧ ';' ∉ t) :
    (pieces ';' (' ' :: (join "; ".toList (line :: more) ++ [' ']))).map strip = line :: more := by
  induction more generalizing line with
  | nil =>
      obtain ⟨htight, hsemicolon⟩ := h line List.mem_cons_self
      have hpiece : ';' ∉ ' ' :: (line ++ [' ']) := by simp [hsemicolon]
      have hline : strip (' ' :: (line ++ [' '])) = line :=
        htight.strip_between (a := [' ']) (b := [' ']) rfl rfl
      rw [join, pieces_of_not_mem hpiece, List.map_singleton, hline]
  | cons next more ih =>
      obtain ⟨htight, hsemicolon⟩ := h line List.mem_cons_self
      have hpiece : ';' ∉ ' ' :: line := by simp [hsemicolon]
      have hline : strip (' ' :: line) = line :=
        (strip_append (b := [' ']) rfl line).trans htight.strip
      have hjoin : ' ' :: (join "; ".toList (line :: next :: more) ++ [' ']) =
          ' ' :: line ++ ';' :: ' ' :: (join "; ".toList (next :: more) ++ [' ']) := by
        rw [join]
        simp
      rw [hjoin, pieces_append hpiece, List.map_cons, hline,
        ih fun t ht => h t (List.mem_cons_of_mem _ ht)]

/-- The statements of a line are found again between its braces. -/
theorem inlineStatements_join {lines : List Text} (hne : ∀ line ∈ lines, line ≠ [])
    (hlines : (Layout.oneLine .below).Admits lines) :
    inlineStatements (' ' :: (join "; ".toList lines ++ [' '])) = lines := by
  cases lines with
  | nil => rfl
  | cons line more =>
      have htight : ∀ t ∈ line :: more, t.Tight ∧ ';' ∉ t := by
        intro t ht
        obtain ⟨htrimmed, hsemicolon, -⟩ := hlines t ht
        exact ⟨tight_of_strip (hne t ht) htrimmed, hsemicolon⟩
      rw [inlineStatements, strip_pieces_join htight]
      exact List.filter_eq_self.mpr fun t ht => by simpa using hne t ht

section Bodies

variable {body : List Text}

theorem bodyAfter_beside (hbody : ∀ line ∈ body, line ≠ [] ∧ startsWith ['}'] line = false)
    (behind : Text) (rest : List Text) :
    bodyAfter ['{'] (body ++ ('}' :: behind) :: rest) = ⟨body, strip behind, rest⟩ := by
  have hafter : after? ['{'] ['{'] = some [] := rfl
  have hcut : cutAt '}' [] = none := rfl
  rw [bodyAfter, if_neg (by decide), if_neg (by decide), bodyBeside, hafter]
  simp only [hcut, blockLines_append hbody]
  rfl

theorem bodyAfter_below (hbody : ∀ line ∈ body, line ≠ [] ∧ startsWith ['}'] line = false)
    (behind : Text) (rest : List Text) :
    bodyAfter [] (['{'] :: (body ++ ('}' :: behind) :: rest)) = ⟨body, strip behind, rest⟩ := by
  rw [bodyAfter, if_pos List.isEmpty_nil, bodyBelow, if_pos rfl, blockLines_append hbody]

theorem bodyAfter_oneLine (hne : ∀ line ∈ body, line ≠ [])
    (hbody : (Layout.oneLine .below).Admits body) (behind : Text) (rest : List Text) :
    bodyAfter ("\x7b ".toList ++ join "; ".toList body ++ " \x7d".toList ++ behind) rest =
      ⟨body, strip behind, rest⟩ := by
  have hmem : '}' ∉ ' ' :: (join "; ".toList body ++ [' ']) := by
    have hjoin := not_mem_join (by decide : '}' ∉ "; ".toList)
      fun line hline => (hbody line hline).2.2
    simpa using hjoin
  have hcut : cutAt '}' (' ' :: (join "; ".toList body ++ [' ']) ++ '}' :: behind) =
      some (' ' :: (join "; ".toList body ++ [' ']), behind) :=
    cutAt_eq_some_iff.mpr ⟨rfl, hmem⟩
  have htext : "\x7b ".toList ++ join "; ".toList body ++ " \x7d".toList ++ behind =
      '{' :: (' ' :: (join "; ".toList body ++ [' ']) ++ '}' :: behind) := by simp
  have hafter : after? ['{'] ('{' :: (' ' :: (join "; ".toList body ++ [' ']) ++ '}' :: behind)) =
      some (' ' :: (join "; ".toList body ++ [' ']) ++ '}' :: behind) :=
    after?_eq_some_iff.mpr rfl
  rw [htext, bodyAfter, if_neg (by simp), if_neg (by simp), bodyBeside, hafter]
  simp only [hcut, inlineStatements_join hne hbody]

theorem bodyAfter_bare {line : Text} (hne : line ≠ []) (hclosing : startsWith ['}'] line = false)
    (hopening : line ≠ ['{']) (helse : afterWord? "else".toList line = none) (rest : List Text) :
    bodyAfter [] (line :: rest) = ⟨[line], [], rest⟩ := by
  have halone : standsAlone line = true := by
    simp [standsAlone, hne, hclosing, elseHeader?_of_none helse]
  rw [bodyAfter, if_pos List.isEmpty_nil, bodyBelow, if_neg hopening, if_pos halone]

end Bodies

/-- A written body is read back, up to what is placed behind it. -/
theorem exists_bodyAfter_write (b : WrittenBody) (header : Text) {more : List Text}
    (hmore : HeadsElse more) (rest : List Text) :
    ∃ inline t below, b.write header more = (header ++ inline) :: below ∧ Inline inline t ∧
      (∀ c ∈ t.head?, c = '{') ∧
      bodyAfter t (below ++ rest) =
        ⟨b.lines, strip (b.layout.next.joined more), b.layout.next.left more ++ rest⟩ := by
  obtain ⟨lines, layout, hordinary, hadmitted⟩ := b
  have hne : ∀ line ∈ lines, line ≠ [] := fun line hline => (hordinary line hline).1
  have hblock : ∀ line ∈ lines, line ≠ [] ∧ startsWith ['}'] line = false :=
    fun line hline => ⟨(hordinary line hline).1, (hordinary line hline).2.2⟩
  have hbrace : Tight ['{'] := ⟨⟨'{', [], rfl, by decide⟩, [], '{', rfl, by decide⟩
  cases layout with
  | braced opening next =>
      cases opening with
      | beside =>
          refine ⟨" \x7b".toList, ['{'], lines ++ next.put ['}'] more, rfl,
            .text hbrace (by decide), by simp, ?_⟩
          rw [List.append_assoc]
          exact bodyAfter_beside hblock (next.joined more) (next.left more ++ rest)
      | below =>
          refine ⟨[], [], ['{'] :: (lines ++ next.put ['}'] more), rfl, .nothing, by simp, ?_⟩
          rw [List.cons_append, List.append_assoc]
          exact bodyAfter_below hblock (next.joined more) (next.left more ++ rest)
  | oneLine next =>
      obtain ⟨t, hjoined, -⟩ := elseAfter_joined hmore next rest
      refine ⟨' ' ::
          ("\x7b ".toList ++ join "; ".toList lines ++ " \x7d".toList ++ next.joined more),
        _, next.left more, ?_, hjoined.text_append ?_ ?_, by simp, ?_⟩
      · simp [WrittenBody.write, Placement.put]
      · rw [List.append_assoc]
        exact Text.tight_append ⟨'{', [' '], rfl, by decide⟩ ⟨[' '], '}', rfl, by decide⟩ _
      · have hjoin := not_mem_join (by decide : '\n' ∉ "; ".toList)
          fun line hline => (hordinary line hline).2.1
        simpa using hjoin
      · exact bodyAfter_oneLine hne hadmitted (next.joined more) (next.left more ++ rest)
  | bare =>
      match lines, hadmitted with
      | [line], hadmitted =>
          obtain ⟨hline, -, hclosing⟩ := hordinary line List.mem_cons_self
          refine ⟨[], [], line :: more, ?_, .nothing, by simp, ?_⟩
          · simp [WrittenBody.write]
          · exact bodyAfter_bare hline hclosing hadmitted.1 hadmitted.2 (more ++ rest)

/-! ## Reading headers -/

theorem tight_header (c : Condition) {keyword : Text}
    (hkeyword : ∃ d u, keyword = d :: u ∧ isBlank d = false) : (c.header keyword).Tight := by
  rw [Condition.header, List.append_assoc keyword]
  exact Text.tight_append hkeyword ⟨[], ')', rfl, by decide⟩ _

/-- A balanced condition behind its keyword is read, with what stands behind it. -/
theorem parenGroup_keyword {keyword condition inline t : Text} (hkeyword : '(' ∉ keyword)
    (hcondition : condition.Balanced) (h : Inline inline t) :
    parenGroup (keyword ++ " (".toList ++ condition ++ ")".toList ++ inline) =
      (strip condition, t) := by
  have hbefore : '(' ∉ keyword ++ [' '] := by simpa using hkeyword
  have hsplit : keyword ++ " (".toList ++ condition ++ ")".toList ++ inline =
      keyword ++ [' '] ++ '(' :: (condition ++ ')' :: inline) := by
    simp
  rw [hsplit, parenGroup_balanced hbefore hcondition, h.strip_eq]

/-- The condition of a header is read back, with what stands behind the header. -/
theorem parenGroup_header (c : Condition) {keyword : Text} (hkeyword : '(' ∉ keyword)
    {inline t : Text} (h : Inline inline t) :
    parenGroup (c.header keyword ++ inline) = (c.text, t) := by
  rw [Condition.header, parenGroup_keyword hkeyword c.balanced h, c.trimmed]

theorem orPlaceholder_of_ne {condition : Text} (hne : condition ≠ []) :
    orPlaceholder condition = condition :=
  if_neg (by simpa using hne)

theorem lineKind_if (c : Condition) (inline : Text) :
    lineKind (c.header "if".toList ++ inline) = .conditional := by
  rfl

theorem lineKind_loop (c : Condition) {keyword : Text}
    (hkeyword : keyword ∈ ["for".toList, "while".toList]) (inline : Text) :
    lineKind (c.header keyword ++ inline) = .loop ∧
      loopKeyword? (c.header keyword ++ inline) = some keyword := by
  simp only [List.mem_cons, List.not_mem_nil, or_false] at hkeyword
  rcases hkeyword with rfl | rfl
  · exact ⟨rfl, rfl⟩
  · exact ⟨rfl, rfl⟩

/-- What stands behind an `else` that is not followed by a condition opens no conditional. -/
theorem lineKind_ne_conditional {t : Text} (h : ∀ c ∈ t.head?, c = '{') :
    lineKind t ≠ .conditional := by
  cases t with
  | nil => decide
  | cons c t =>
      obtain rfl : c = '{' := h c rfl
      have hkind : lineKind ('{' :: t) = if isSkipped ('{' :: t) then .skipped else .plain := rfl
      rw [hkind]
      split
      · decide
      · decide

/-! ## Reading statements -/

theorem headsElse_nil : HeadsElse [] := by
  simp [HeadsElse]

theorem headsElse_cons {inline t : Text} (h : Inline inline t) (more : List Text) :
    HeadsElse (("else".toList ++ inline) :: more) := by
  intro line hline
  obtain rfl : "else".toList ++ inline = line := by simpa using hline
  exact ⟨inline, t, rfl, h⟩

/-- What stands behind the word of an `else` that has a condition. -/
theorem inline_header (c : Condition) {inline t : Text} (h : Inline inline t) :
    Inline (' ' :: (c.header "if".toList ++ inline)) (c.header "if".toList ++ inline) := by
  refine h.text_append (tight_header c ⟨'i', ['f'], rfl, by decide⟩) ?_
  have hunbroken := c.unbroken
  simpa [Condition.header] using hunbroken

theorem header_else (c : Condition) (inline : Text) :
    c.header "else if".toList ++ inline =
      "else".toList ++ ' ' :: (c.header "if".toList ++ inline) :=
  rfl

theorem headsElse_writeElse (arms : List WrittenArm) (last : Option WrittenBody) :
    HeadsElse (writeElse arms last) := by
  induction arms with
  | nil =>
      cases last with
      | none => exact headsElse_nil
      | some last =>
          obtain ⟨inline, t, below, hwrite, hinline, -⟩ :=
            exists_bodyAfter_write last "else".toList headsElse_nil []
          rw [writeElse, hwrite]
          exact headsElse_cons hinline below
  | cons arm arms ih =>
      obtain ⟨inline, t, below, hwrite, hinline, -⟩ :=
        exists_bodyAfter_write arm.body (arm.condition.header "else if".toList) ih []
      rw [writeElse, hwrite, header_else]
      exact headsElse_cons (inline_header arm.condition hinline) below

/-- Behind a written body the alternatives are those of the lines behind it. -/
theorem alternatives_joined {more : List Text} (hmore : HeadsElse more) (p : Placement)
    (rest : List Text) :
    alternatives (strip (p.joined more)) (p.left more ++ rest) =
      alternatives [] (more ++ rest) := by
  obtain ⟨t, hinline, helse⟩ := elseAfter_joined hmore p rest
  rw [hinline.strip_eq]
  exact alternatives_congr helse

/-- The alternatives of a written conditional are read back. -/
theorem alternatives_writeElse (arms : List WrittenArm) (last : Option WrittenBody)
    {rest : List Text}
    (hrest : last = none → ∀ line ∈ rest.head?, afterWord? "else".toList line = none) :
    alternatives [] (writeElse arms last ++ rest) =
      ⟨arms.map fun arm => ⟨arm.condition.text, arm.body.lines⟩,
        (last.map WrittenBody.lines).getD [], rest⟩ := by
  induction arms with
  | nil =>
      cases last with
      | none => exact alternatives_of_none (elseAfter_of_head (hrest rfl))
      | some last =>
          obtain ⟨inline, t, below, hwrite, hinline, hkind, hbody⟩ :=
            exists_bodyAfter_write last "else".toList headsElse_nil rest
          have helse := elseAfter_cons (elseHeader?_else hinline) (below ++ rest)
          rw [hinline.strip_self] at helse
          rw [writeElse, hwrite, List.cons_append,
            alternatives_of_last helse (lineKind_ne_conditional hkind) hbody]
          cases last.layout.next <;> rfl
  | cons arm arms ih =>
      obtain ⟨inline, t, below, hwrite, hinline, -, hbody⟩ :=
        exists_bodyAfter_write arm.body (arm.condition.header "else if".toList)
          (headsElse_writeElse arms last) rest
      have hheader := inline_header arm.condition hinline
      have helse := elseAfter_cons (elseHeader?_else hheader) (below ++ rest)
      rw [hheader.strip_self] at helse
      have hgroup := parenGroup_header arm.condition (by decide : '(' ∉ "if".toList) hinline
      have harm := alternatives_of_arm helse (lineKind_if arm.condition inline)
        (by rw [hgroup, hbody])
      rw [hgroup, orPlaceholder_of_ne arm.condition_ne] at harm
      rw [writeElse, hwrite, List.cons_append, header_else, harm]
      simp only [alternatives_joined (headsElse_writeElse arms last), ih, List.map_cons]

/-- What is written is read as the statement it was written from, and what follows is read as it
would be alone. -/
theorem statements_written (w : Written) {rest : List Text}
    (hrest : w.IsOpen → ∀ line ∈ rest.head?, afterWord? "else".toList line = none) :
    statements (w.lines ++ rest) = w.statement (w.lines.headD []) :: statements rest := by
  cases w with
  | conditional first more last =>
      have hmore := headsElse_writeElse more last
      obtain ⟨inline, t, below, hwrite, hinline, -, hbody⟩ :=
        exists_bodyAfter_write first.body (first.condition.header "if".toList) hmore rest
      have hgroup := parenGroup_header first.condition (by decide : '(' ∉ "if".toList) hinline
      have hothers := (alternatives_joined hmore first.body.layout.next rest).trans
        (alternatives_writeElse more last hrest)
      have hread := read_conditional (lineKind_if first.condition inline) (by rw [hgroup, hbody])
        hothers
      rw [hgroup, orPlaceholder_of_ne first.condition_ne] at hread
      rw [Written.lines, hwrite, List.cons_append, statements_of_read hread]
      rfl
  | loop keyword hkeyword condition body =>
      obtain ⟨inline, t, below, hwrite, hinline, -, hbody⟩ :=
        exists_bodyAfter_write body (condition.header keyword) headsElse_nil rest
      obtain ⟨hkind, hloop⟩ := lineKind_loop condition hkeyword inline
      have hparen : ∀ k ∈ ["for".toList, "while".toList], '(' ∉ k := by decide
      have hgroup := parenGroup_header condition (hparen keyword hkeyword) hinline
      have hread := read_loop hkind hloop (by rw [hgroup, hbody])
      rw [hgroup] at hread
      rw [Written.lines, hwrite, List.cons_append, statements_of_read hread]
      cases body.layout.next <;> rfl

/-- A chain without a last `else`, each of its bodies in another layout. -/
def mixedChain : Written :=
  .conditional
    ⟨⟨"a(b) > 1".toList, by decide, by decide, by decide⟩, by decide,
      ⟨["if (x) \x7b".toList, "y = 1;".toList], .braced .below .beside, by decide, by decide⟩⟩
    [⟨⟨"c".toList, by decide, by decide, by decide⟩, by decide,
        ⟨["f()".toList, "g()".toList], .oneLine .beside, by decide, by decide⟩⟩,
      ⟨⟨"(d)".toList, by decide, by decide, by decide⟩, by decide,
        ⟨["return;".toList], .bare, by decide, by decide⟩⟩]
    none

theorem statements_written_mixedChain :
    (∀ line ∈ ["elsewhere();".toList, "else".toList].head?,
        afterWord? "else".toList line = none) ∧
      statements (["if (a(b) > 1)".toList, "\x7b".toList, "if (x) \x7b".toList, "y = 1;".toList,
          "\x7d else if (c) \x7b f(); g() \x7d else if ((d))".toList, "return;".toList] ++
          ["elsewhere();".toList, "else".toList]) =
        .conditional ⟨"a(b) > 1".toList, ["if (x) \x7b".toList, "y = 1;".toList]⟩
          [⟨"c".toList, ["f()".toList, "g()".toList]⟩, ⟨"(d)".toList, ["return;".toList]⟩] []
          "if (a(b) > 1)".toList :: statements ["elsewhere();".toList, "else".toList] := by
  have hrest : ∀ line ∈ ["elsewhere();".toList, "else".toList].head?,
      afterWord? "else".toList line = none := by decide
  exact ⟨hrest, statements_written mixedChain fun _ => hrest⟩

end Source

end Flowchart
