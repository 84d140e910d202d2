import Flowchart.Source.Line

/-!
# Bodies

A header such as `if (c)`, `else` or `while (c)` governs a body: the lines up to the first line
that begins with a closing brace, the statements between braces on one line, or a single
statement. `bodyAfter` finds the body from the text after the header and the lines below it;
`elseAfter` looks for an `else` behind a body.

Both give back the lines they have not read, which end the lines they were given: nothing is
read twice. `extent_bodyAfter_le` and `extent_elseAfter_lt` measure what is left, and the reader
of statements ends because of them.
-/

set_option autoImplicit false

namespace Flowchart.Source

open Text

/-- A body that has been read. -/
structure Body where
  lines : List Text
  /-- What stands behind the body on its last line. -/
  trailing : Text
  rest : List Text
deriving DecidableEq, Repr

/-! ## The shapes of a body -/

/-- The statements of a text in which semicolons separate them. -/
def inlineStatements (t : Text) : List Text :=
  ((pieces ';' t).map strip).filter (!·.isEmpty)

/-- The text before the first semicolon that is followed by an `else`, and the text from that
`else` on. No line feed may stand before the semicolon, and none after it but at the very end. -/
def cutAtElse : Text → Option (Text × Text)
  | [] => none
  | c :: t =>
      if c = '\n' then none
      else
        -- The first semicolon that will do is taken, so that the part before it is shortest.
        match (if c = ';' then elseTail? (stripLeft t) else none) with
        | some tail => some ([], tail)
        | none => (cutAtElse t).map fun (a, b) => (c :: a, b)
where
  /-- The text itself when it opens with the word `else` and is a single line. -/
  elseTail? (t : Text) : Option Text :=
    (afterWord? "else".toList t).bind fun _ => lastLine? t

/-- Whether a line can be a body on its own below a header. -/
def standsAlone (line : Text) : Bool :=
  !line.isEmpty && (elseHeader? line).isNone && !startsWith ['}'] line

/-- The non-empty lines up to the first line that begins with a closing brace. What follows the
brace on that line trails behind the body. -/
def blockLines : List Text → Body
  | [] => ⟨[], [], []⟩
  | line :: rest =>
      match after? ['}'] line with
      | some trailing => ⟨[], strip trailing, rest⟩
      | none =>
          let block := blockLines rest
          -- An empty line is no line of the block.
          if line.isEmpty then block else { block with lines := line :: block.lines }

/-- The body of a header with nothing after it on its own line: a block when the next line is an
opening brace, the next line when that stands alone, and else nothing. -/
def bodyBelow : List Text → Body
  | [] => ⟨[], [], []⟩
  | line :: rest =>
      if line = ['{'] then blockLines rest
      else if standsAlone line then ⟨[line], [], rest⟩
      else ⟨[], [], line :: rest⟩

/-- The body that begins on the line of its header, after which `inline` follows there. -/
def bodyBeside (inline : Text) (lines : List Text) : Body :=
  match after? ['{'] inline with
  | some inner =>
      match cutAt '}' inner with
      | some (inside, trailing) => ⟨inlineStatements inside, strip trailing, lines⟩
      | none =>
          -- The block goes on below, behind what stands beside the brace.
          let block := blockLines lines
          { block with lines := inlineStatements inner ++ block.lines }
  | none =>
      match cutAtElse inline with
      | some (only, trailing) => ⟨[strip only], trailing, lines⟩
      | none => ⟨[inline], [], lines⟩

/-- The body of a header: `inline` is what follows the header on its line, `lines` are the lines
below. A lone semicolon is an empty body. -/
def bodyAfter (inline : Text) (lines : List Text) : Body :=
  if inline.isEmpty then bodyBelow lines
  else if inline = [';'] then ⟨[], [], lines⟩
  else bodyBeside inline lines

/-- Looks for an `else` behind a body, in the trailing text if there is any and on the next line
otherwise. Gives what follows the `else`, and the lines not read. -/
def elseAfter (trailing : Text) (lines : List Text) : Option Text × List Text :=
  if trailing.isEmpty then
    match lines with
    | [] => (none, [])
    | line :: rest =>
        match elseHeader? line with
        | some header => (some (strip header), rest)
        | none => (none, line :: rest)
  else ((elseHeader? trailing).map strip, lines)

/-! ## How much is left to read -/

/-- The number of characters in the lines, each line end counted as one. -/
def extent : List Text → Nat
  | [] => 0
  | line :: rest => line.length + 1 + extent rest

theorem length_strip_le (t : Text) : (strip t).length ≤ t.length := by
  have h (p : Char → Bool) (u : Text) : (u.dropWhile p).length ≤ u.length :=
    (List.dropWhile_sublist p).length_le
  have h1 := h isBlank (stripLeft t).reverse
  have h2 := h isBlank t
  simp only [strip, stripRight, stripLeft, List.length_reverse] at *
  omega

/-- A removed beginning and what follows it make up the text. -/
theorem length_of_after? {start t rest : Text} (h : after? start t = some rest) :
    t.length = start.length + rest.length := by
  rw [after?_eq_some_iff.mp h, List.length_append]

/-- The two parts of a cut and the separator make up the text. -/
theorem length_of_cutAt {sep : Char} {t a b : Text} (h : cutAt sep t = some (a, b)) :
    t.length = a.length + b.length + 1 := by
  rw [(cutAt_eq_some_iff.mp h).1, List.length_append, List.length_cons]
  omega

/-- The last line of a text is no longer than the text. -/
theorem length_of_lastLine? {t u : Text} (h : lastLine? t = some u) : u.length ≤ t.length := by
  induction t generalizing u with
  | nil =>
      simp only [lastLine?, Option.some.injEq] at h
      simp [← h]
  | cons c t ih =>
      by_cases hc : c = '\n'
      · simp only [lastLine?, hc, if_true] at h
        split at h
        · simp only [Option.some.injEq] at h
          simp [← h]
        · cases h
      · simp only [lastLine?, hc, if_false, Option.map_eq_some_iff] at h
        obtain ⟨v, hv, rfl⟩ := h
        have := ih hv
        simp only [List.length_cons]
        omega

/-- What follows an `else` is at least four characters shorter than the text with it. -/
theorem length_of_elseHeader? {t header : Text} (h : elseHeader? t = some header) :
    header.length + 4 ≤ t.length := by
  simp only [elseHeader?, afterWord?, Option.bind_eq_some_iff, Option.filter_eq_some_iff] at h
  obtain ⟨rest, ⟨hrest, _⟩, hline⟩ := h
  have h1 := length_of_after? hrest
  have h2 := length_of_lastLine? hline
  have h3 : (stripLeft rest).length ≤ rest.length := (List.dropWhile_sublist _).length_le
  have h4 : "else".toList.length = 4 := rfl
  omega

/-- What trails behind the first inline statement is part of the text. -/
theorem length_of_cutAtElse {t a b : Text} (h : cutAtElse t = some (a, b)) :
    b.length ≤ t.length := by
  induction t generalizing a b with
  | nil => cases h
  | cons c t ih =>
      simp only [cutAtElse] at h
      split at h
      · cases h
      · split at h
        · rename_i tail htail
          simp only [Option.some.injEq, Prod.mk.injEq] at h
          obtain ⟨_, rfl⟩ := h
          -- A cut is made at a semicolon only.
          split at htail
          · simp only [cutAtElse.elseTail?, Option.bind_eq_some_iff] at htail
            obtain ⟨_, _, hline⟩ := htail
            have h2 := length_of_lastLine? hline
            have h3 : (stripLeft t).length ≤ t.length := (List.dropWhile_sublist _).length_le
            simp only [List.length_cons]
            omega
          · cases htail
        · obtain ⟨⟨a', b'⟩, hrec, heq⟩ := Option.map_eq_some_iff.mp h
          simp only [Prod.mk.injEq] at heq
          obtain ⟨_, rfl⟩ := heq
          have := ih hrec
          simp only [List.length_cons]
          omega

/-- A block with what trails behind it is no larger than the lines it was read from. -/
theorem extent_blockLines_le (lines : List Text) :
    extent (blockLines lines).rest + (blockLines lines).trailing.length ≤ extent lines := by
  induction lines with
  | nil => simp [blockLines, extent]
  | cons line rest ih =>
      simp only [blockLines, extent]
      split
      · rename_i trailing h
        have h1 := length_of_after? h
        have h2 := length_strip_le trailing
        simp only [List.length_cons, List.length_nil] at h1
        simp only
        omega
      · split
        · omega
        · simp only
          omega

/-- What is left to read after a body is no more than what was given. -/
theorem extent_bodyAfter_le (inline : Text) (lines : List Text) :
    extent (bodyAfter inline lines).rest + (bodyAfter inline lines).trailing.length ≤
      extent lines + inline.length := by
  unfold bodyAfter
  split
  -- Nothing stands beside the header, so the body is below it.
  · cases lines with
    | nil => simp [bodyBelow, extent]
    | cons line rest =>
        rw [extent]
        simp only [bodyBelow]
        split
        · have := extent_blockLines_le rest
          omega
        · split
          · simp only [List.length_nil]
            omega
          · simp only [List.length_nil, extent]
            omega
  · split
    · simp
    · unfold bodyBeside
      split
      · rename_i inner hinner
        have h1 := length_of_after? hinner
        simp only [List.length_cons, List.length_nil] at h1
        split
        -- The braces close on the line of the header.
        · rename_i inside trailing hcut
          have h2 := length_of_cutAt hcut
          have h3 := length_strip_le trailing
          simp only
          omega
        · have := extent_blockLines_le lines
          simp only
          omega
      · split
        · rename_i only trailing hcut
          have := length_of_cutAtElse hcut
          simp only
          omega
        · simp

/-- Finding an `else` uses up at least the word itself. -/
theorem extent_elseAfter_lt {trailing : Text} {lines rest : List Text} {header : Text}
    (h : elseAfter trailing lines = (some header, rest)) :
    extent rest + header.length < extent lines + trailing.length := by
  unfold elseAfter at h
  split at h
  · split at h
    · cases h
    · split at h
      · rename_i line rest' header' hheader
        simp only [Prod.mk.injEq, Option.some.injEq] at h
        obtain ⟨rfl, rfl⟩ := h
        have h1 := length_of_elseHeader? hheader
        have h2 := length_strip_le header'
        simp only [extent]
        omega
      · cases h
  · simp only [Prod.mk.injEq, Option.map_eq_some_iff] at h
    obtain ⟨⟨header', hheader, rfl⟩, rfl⟩ := h
    have h1 := length_of_elseHeader? hheader
    have h2 := length_strip_le header'
    omega

/-! ## The lines that are left end the lines that were given -/

/-- The lines below a block end the lines it was read from. -/
theorem blockLines_rest_suffix (lines : List Text) : (blockLines lines).rest <:+ lines := by
  induction lines with
  | nil => exact List.suffix_refl _
  | cons line rest ih =>
      simp only [blockLines]
      split
      · exact List.suffix_cons _ _
      · split
        · exact ih.trans (List.suffix_cons _ _)
        · exact ih.trans (List.suffix_cons _ _)

/-- The lines below a body end the lines below its header. -/
theorem bodyAfter_rest_suffix (inline : Text) (lines : List Text) :
    (bodyAfter inline lines).rest <:+ lines := by
  unfold bodyAfter
  split
  · cases lines with
    | nil => exact List.suffix_refl _
    | cons line rest =>
        simp only [bodyBelow]
        split
        · exact (blockLines_rest_suffix rest).trans (List.suffix_cons _ _)
        · split
          · exact List.suffix_cons _ _
          · exact List.suffix_refl _
  · split
    · exact List.suffix_refl _
    · unfold bodyBeside
      split
      · split
        · exact List.suffix_refl _
        · exact blockLines_rest_suffix lines
      · split
        · exact List.suffix_refl _
        · exact List.suffix_refl _

/-- The lines left after looking for an `else` end the lines that were given. -/
theorem elseAfter_rest_suffix (trailing : Text) (lines : List Text) :
    (elseAfter trailing lines).2 <:+ lines := by
  unfold elseAfter
  split
  · split
    · exact List.suffix_refl _
    · split
      · exact List.suffix_cons _ _
      · exact List.suffix_refl _
  · exact List.suffix_refl _

end Flowchart.Source
