import Flowchart.Proofs.Source.Balance
import Flowchart.Proofs.Source.Reading
import Flowchart.Proofs.Text.Cuts
import Mathlib.Data.List.Flatten

/-!
# What statements are made of

Reading hands out each character of the source at most once. The substance of a statement is the
text that it is made of: the word or the header that it opens with, and the lines of its bodies.
In front of the lines that are not read, the substance is what the statement was read from with
characters left out, none of them twice and none out of order (`sublist_read`).

Each reader has a lemma of this form, from the cuts of a text up to `sublist_statements`, which
says it of all statements of a list of lines.
-/

set_option autoImplicit false

open scoped List

namespace Flowchart

open Text

/-! ## Cuts -/

namespace Text

theorem stripLeft_sublist (t : Text) : stripLeft t <+ t := List.dropWhile_sublist isBlank

theorem stripRight_sublist (t : Text) : stripRight t <+ t := by
  have h := (stripLeft_sublist t.reverse).reverse
  rwa [List.reverse_reverse] at h

theorem strip_sublist (t : Text) : strip t <+ t :=
  (stripRight_sublist (stripLeft t)).trans (stripLeft_sublist t)

theorem flatten_map_strip_sublist (ts : List Text) : (ts.map strip).flatten <+ ts.flatten := by
  induction ts with
  | nil => exact List.Sublist.refl _
  | cons t ts ih => exact (strip_sublist t).append ih

theorem sublist_of_lastLine? {t u : Text} (h : lastLine? t = some u) : u <+ t := by
  induction t generalizing u with
  | nil =>
      obtain rfl : [] = u := Option.some.inj h
      exact List.Sublist.refl _
  | cons c t ih =>
      unfold lastLine? at h
      split at h
      · split at h
        · obtain rfl : [] = u := Option.some.inj h
          exact List.nil_sublist _
        · cases h
      · obtain ⟨v, hv, rfl⟩ := Option.map_eq_some_iff.mp h
        exact (ih hv).cons_cons c

theorem flatten_pieces_sublist (sep : Char) (t : Text) : (pieces sep t).flatten <+ t := by
  induction t with
  | nil => exact List.Sublist.refl _
  | cons c t ih =>
      unfold pieces
      split
      · exact ih.cons c
      · rw [flatten_consHead]
        exact ih.cons_cons c

/-- The lines of a text are the text without its line ends. -/
theorem flatten_lines_sublist (t : Text) : (lines t).flatten <+ t := by
  fun_induction lines t with
  | case1 => exact List.Sublist.refl _
  | case2 t ih => exact ih.cons _
  | case3 u _ ih => exact (ih.cons _).cons _
  | case4 t _ _ ih => exact ih.cons _
  | case5 c t _ _ ih =>
      rw [flatten_consHead]
      exact ih.cons_cons c

end Text

/-! ## Substance -/

/-- A condition as it stands in the source: nothing when a word stands in for it. -/
def written (condition : Text) : Text := if condition = "condition".toList then [] else condition

/-- The text of an arm: its header, and the lines of its body. -/
def Arm.substance (a : Arm) : Text := "if(".toList ++ (written a.condition ++ a.body.flatten)

/-- The text of a statement: what it opens with, what is kept of its line, and the lines of its
bodies. -/
def Statement.substance : Statement → Text
  | function name _ => "function".toList ++ name
  | conditional first more elseBody _ =>
      (first :: more).flatMap Arm.substance ++ elseBody.flatten
  | loop keyword condition body _ => keyword ++ '(' :: (condition ++ body.flatten)
  | «variable» content _ => content
  | result value _ => "return".toList ++ if value = "void".toList then [] else value
  | plain content _ => content

namespace Source

/-! ## Headers -/

/-- A header holds its keyword, the inside of its parentheses and what follows them. -/
theorem sublist_of_opensGroup {keyword line : Text} (hkeyword : '(' ∉ keyword)
    (h : opensGroup keyword line = true) :
    keyword ++ '(' :: ((parenGroup line).1 ++ (parenGroup line).2) <+ line := by
  obtain ⟨behind, hbehind, hopen⟩ := (Option.any_eq_true ..).mp h
  obtain ⟨u, hu⟩ := Option.isSome_iff_exists.mp hopen
  -- Only blanks stand between the keyword and the parenthesis, so it is the first of the line.
  have hline : line = (keyword ++ behind.takeWhile isBlank) ++ '(' :: u := by
    have hsplit := List.takeWhile_append_dropWhile (p := isBlank) (l := behind)
    have hleft : behind.dropWhile isBlank = '(' :: u := after?_eq_some_iff.mp hu
    rw [after?_eq_some_iff.mp hbehind, List.append_assoc, ← hleft, hsplit]
  have hfirst : '(' ∉ keyword ++ behind.takeWhile isBlank := by
    intro hmem
    rcases List.mem_append.mp hmem with hmem | hmem
    · exact hkeyword hmem
    · exact absurd (List.all_eq_true.mp List.all_takeWhile '(' hmem) (by decide)
  have hcut : cutAt '(' line = some (keyword ++ behind.takeWhile isBlank, u) :=
    cutAt_eq_some_iff.mpr ⟨hline, hfirst⟩
  have hbegin : keyword <+ keyword ++ behind.takeWhile isBlank := List.sublist_append_left _ _
  rw [parenGroup, hcut]
  simp only
  cases hclose : closeGroup 0 u with
  | none =>
      simp only
      rw [hline]
      exact hbegin.append ((List.nil_sublist u).cons_cons '(')
  | some parts =>
      obtain ⟨inside, rest⟩ := parts
      have hparts : strip inside ++ strip rest <+ u := by
        rw [(closeGroup_eq_some_iff.mp hclose).1]
        exact (strip_sublist inside).append ((strip_sublist rest).cons ')')
      simp only
      rw [hline]
      exact hbegin.append (hparts.cons_cons '(')

/-- An `else` and what follows it are in the text that opens with it. -/
theorem sublist_of_elseHeader? {t header : Text} (h : elseHeader? t = some header) :
    "else".toList ++ header <+ t := by
  obtain ⟨rest, hword, hlast⟩ := Option.bind_eq_some_iff.mp h
  have ht := after?_eq_some_iff.mp (Option.filter_eq_some_iff.mp hword).1
  have hheader := (sublist_of_lastLine? hlast).trans (stripLeft_sublist _)
  rw [ht]
  exact hheader.append_left _

/-- The two parts of a text that is cut at an `else` are apart in it. -/
theorem sublist_of_cutAtElse {t a b : Text} (h : cutAtElse t = some (a, b)) : a ++ b <+ t := by
  induction t generalizing a with
  | nil => cases h
  | cons c t ih =>
      unfold cutAtElse at h
      split at h
      · cases h
      · split at h
        · rename_i tail htail
          obtain ⟨rfl, rfl⟩ := Prod.mk.inj (Option.some.inj h)
          split at htail
          · obtain ⟨_, _, hlast⟩ := Option.bind_eq_some_iff.mp htail
            exact ((sublist_of_lastLine? hlast).trans (stripLeft_sublist _)).cons c
          · cases htail
        · obtain ⟨⟨before, behind⟩, hrec, heq⟩ := Option.map_eq_some_iff.mp h
          obtain ⟨rfl, rfl⟩ := Prod.mk.inj heq
          exact (ih hrec).cons_cons c

/-! ## Bodies -/

theorem flatten_inlineStatements_sublist (t : Text) : (inlineStatements t).flatten <+ t :=
  calc (inlineStatements t).flatten
      <+ ((pieces ';' t).map strip).flatten := List.filter_sublist.flatten
    _ <+ (pieces ';' t).flatten := flatten_map_strip_sublist _
    _ <+ t := flatten_pieces_sublist ';' t

/-- The text of a body, what trails behind it, and what is left below it. -/
def Body.text (body : Body) : Text := body.lines.flatten ++ (body.trailing ++ body.rest.flatten)

theorem Body.flatten_sublist_text (body : Body) :
    body.lines.flatten ++ body.rest.flatten <+ body.text :=
  (List.sublist_append_right body.trailing _).append_left _

theorem text_blockLines_sublist (lines : List Text) : (blockLines lines).text <+ lines.flatten := by
  induction lines with
  | nil => exact List.Sublist.refl _
  | cons line rest ih =>
      unfold blockLines
      split
      · rename_i trailing hclose
        rw [after?_eq_some_iff.mp hclose]
        exact ((strip_sublist trailing).append_right rest.flatten).cons '}'
      · split
        · exact ih.trans (List.sublist_append_right line _)
        · calc line ++ (blockLines rest).lines.flatten ++ _
              = line ++ (blockLines rest).text := List.append_assoc ..
            _ <+ line ++ rest.flatten := ih.append_left line

theorem text_bodyBelow_sublist (lines : List Text) : (bodyBelow lines).text <+ lines.flatten := by
  cases lines with
  | nil => exact List.Sublist.refl _
  | cons line rest =>
      rw [bodyBelow]
      split
      · exact (text_blockLines_sublist rest).trans (List.sublist_append_right line _)
      · split
        · calc line ++ [] ++ rest.flatten
              = line ++ rest.flatten := by rw [List.append_nil]
            _ <+ line ++ rest.flatten := List.Sublist.refl _
        · exact List.Sublist.refl _

theorem text_bodyBeside_sublist (inline : Text) (lines : List Text) :
    (bodyBeside inline lines).text <+ inline ++ lines.flatten := by
  unfold bodyBeside
  split
  · rename_i inner hopen
    obtain rfl : inline = '{' :: inner := after?_eq_some_iff.mp hopen
    split
    · rename_i inside trailing hcut
      have hparts : (inlineStatements inside).flatten ++ strip trailing <+ inner := by
        rw [(cutAt_eq_some_iff.mp hcut).1]
        exact (flatten_inlineStatements_sublist inside).append ((strip_sublist trailing).cons '}')
      calc (inlineStatements inside).flatten ++ (strip trailing ++ lines.flatten)
          = (inlineStatements inside).flatten ++ strip trailing ++ lines.flatten :=
            (List.append_assoc ..).symm
        _ <+ inner ++ lines.flatten := hparts.append_right _
        _ <+ '{' :: (inner ++ lines.flatten) := List.sublist_cons_self ..
    · calc (inlineStatements inner ++ (blockLines lines).lines).flatten ++ _
          = (inlineStatements inner).flatten ++ (blockLines lines).text := by
            rw [List.flatten_append, List.append_assoc]
            rfl
        _ <+ inner ++ lines.flatten :=
            (flatten_inlineStatements_sublist inner).append (text_blockLines_sublist lines)
        _ <+ '{' :: (inner ++ lines.flatten) := List.sublist_cons_self ..
  · split
    · rename_i only trailing hcut
      calc strip only ++ [] ++ (trailing ++ lines.flatten)
          = strip only ++ trailing ++ lines.flatten := by rw [List.append_nil, List.append_assoc]
        _ <+ only ++ trailing ++ lines.flatten :=
            ((strip_sublist only).append_right trailing).append_right _
        _ <+ inline ++ lines.flatten := (sublist_of_cutAtElse hcut).append_right _
    · calc inline ++ [] ++ lines.flatten
          = inline ++ lines.flatten := by rw [List.append_nil]
        _ <+ inline ++ lines.flatten := List.Sublist.refl _

/-- A body and what is left are in the text after the header and the lines below. -/
theorem text_bodyAfter_sublist (inline : Text) (lines : List Text) :
    (bodyAfter inline lines).text <+ inline ++ lines.flatten := by
  unfold bodyAfter
  split
  · exact (text_bodyBelow_sublist lines).trans (List.sublist_append_right inline _)
  · split
    · exact List.sublist_append_right inline _
    · exact text_bodyBeside_sublist inline lines

theorem sublist_of_elseAfter {trailing header : Text} {lines rest : List Text}
    (h : elseAfter trailing lines = (some header, rest)) :
    "else".toList ++ (header ++ rest.flatten) <+ trailing ++ lines.flatten := by
  have hheader : ∀ {t header : Text}, (elseHeader? t).map strip = some header →
      "else".toList ++ header <+ t := by
    intro t header hmap
    obtain ⟨bare, hbare, rfl⟩ := Option.map_eq_some_iff.mp hmap
    exact ((strip_sublist bare).append_left _).trans (sublist_of_elseHeader? hbare)
  rw [← List.append_assoc]
  unfold elseAfter at h
  split at h
  · refine List.Sublist.trans ?_ (List.sublist_append_right trailing _)
    split at h
    · cases h
    · rename_i line below
      split at h
      · rename_i bare hbare
        obtain ⟨hstrip, rfl⟩ := Prod.mk.inj h
        exact (hheader (by rw [hbare, ← hstrip]; rfl)).append_right _
      · cases h
  · obtain ⟨hmap, rfl⟩ := Prod.mk.inj h
    exact (hheader hmap).append_right _

/-! ## Conditionals -/

theorem written_orPlaceholder_sublist (condition : Text) :
    written (orPlaceholder condition) <+ condition := by
  unfold orPlaceholder written
  split
  · rw [if_pos rfl]
    exact List.nil_sublist _
  · split
    · exact List.nil_sublist _
    · exact List.Sublist.refl _

/-- An arm and what is left behind it are in its header and the lines below. -/
theorem substance_arm_sublist {header : Text} (h : opensGroup "if".toList header = true)
    (below : List Text) {body : Body} (hbody : bodyAfter (parenGroup header).2 below = body) :
    Arm.substance ⟨orPlaceholder (parenGroup header).1, body.lines⟩ ++
      (body.trailing ++ body.rest.flatten) <+ header ++ below.flatten := by
  subst hbody
  let body := bodyAfter (parenGroup header).2 below
  calc "if(".toList ++ (written (orPlaceholder (parenGroup header).1) ++ body.lines.flatten) ++
        (body.trailing ++ body.rest.flatten)
      = "if(".toList ++ (written (orPlaceholder (parenGroup header).1) ++ body.text) := by
        rw [Body.text, List.append_assoc, List.append_assoc]
    _ <+ "if(".toList ++ ((parenGroup header).1 ++ ((parenGroup header).2 ++ below.flatten)) :=
        ((written_orPlaceholder_sublist _).append (text_bodyAfter_sublist _ below)).append_left _
    _ = "if".toList ++ '(' :: ((parenGroup header).1 ++ (parenGroup header).2) ++
        below.flatten := by simp
    _ <+ header ++ below.flatten := (sublist_of_opensGroup (by decide) h).append_right _

def Alternatives.substance (others : Alternatives) : Text :=
  others.arms.flatMap Arm.substance ++ others.elseBody.flatten

/-- The alternatives and the lines below them are in the text that they were read from. -/
theorem substance_alternatives_sublist (trailing : Text) (lines : List Text) :
    (alternatives trailing lines).substance ++ (alternatives trailing lines).rest.flatten <+
      trailing ++ lines.flatten := by
  fun_induction alternatives trailing lines with
  | case1 trailing lines rest h =>
      have hrest := elseAfter_rest_suffix trailing lines
      rw [h] at hrest
      exact hrest.sublist.flatten.trans (List.sublist_append_right trailing _)
  | case2 trailing lines header rest h hkind group body _ others ih =>
      let first : Arm := ⟨orPlaceholder group.1, body.lines⟩
      calc first.substance ++ others.arms.flatMap Arm.substance ++ others.elseBody.flatten ++
            others.rest.flatten
          = first.substance ++ (others.substance ++ others.rest.flatten) := by
            rw [Alternatives.substance, List.append_assoc, List.append_assoc, List.append_assoc]
        _ <+ first.substance ++ (body.trailing ++ body.rest.flatten) := ih.append_left _
        _ <+ header ++ rest.flatten :=
            substance_arm_sublist (opensGroup_of_conditional hkind) rest rfl
        _ <+ "else".toList ++ (header ++ rest.flatten) := List.sublist_append_right _ _
        _ <+ trailing ++ lines.flatten := sublist_of_elseAfter h
  | case3 trailing lines header rest h _ body =>
      calc body.lines.flatten ++ body.rest.flatten
          <+ body.text := body.flatten_sublist_text
        _ <+ header ++ rest.flatten := text_bodyAfter_sublist header rest
        _ <+ "else".toList ++ (header ++ rest.flatten) := List.sublist_append_right _ _
        _ <+ trailing ++ lines.flatten := sublist_of_elseAfter h

/-! ## Statements -/

theorem stripSemicolon_sublist (t : Text) : stripSemicolon t <+ t := by
  have hbare : (before? [';'] (stripRight t)).getD (stripRight t) <+ stripRight t := by
    cases hbefore : before? [';'] (stripRight t) with
    | none => exact List.Sublist.refl _
    | some before =>
        obtain ⟨u, hu, rfl⟩ := Option.map_eq_some_iff.mp hbefore
        have hcut := congrArg List.reverse (after?_eq_some_iff.mp hu)
        rw [List.reverse_reverse, List.reverse_append] at hcut
        calc u.reverse
            <+ u.reverse ++ [';'].reverse.reverse := List.sublist_append_left _ _
          _ = stripRight t := hcut.symm
  exact hbare.trans (stripRight_sublist t)

theorem afterBlanks?_sublist {t rest : Text} (h : afterBlanks? t = some rest) : rest <+ t := by
  cases t with
  | nil => cases h
  | cons c t =>
      rw [afterBlanks?] at h
      split at h
      · obtain rfl := Option.some.inj h
        exact (stripLeft_sublist t).cons c
      · cases h

theorem functionName?_sublist {line name : Text} (h : functionName? line = some name) :
    "function".toList ++ name <+ line := by
  obtain ⟨bare, hbare, rfl⟩ := Option.map_eq_some_iff.mp (Option.filter_eq_some_iff.mp h).1
  obtain ⟨behind, hbehind, hblanks⟩ := Option.bind_eq_some_iff.mp hbare
  rw [after?_eq_some_iff.mp hbehind]
  exact ((List.takeWhile_sublist isWord).trans (afterBlanks?_sublist hblanks)).append_left _

theorem returnValue_sublist {line value : Text} (h : returned? line = some value) :
    "return".toList ++ (if returnValue line = "void".toList then [] else returnValue line) <+
      line := by
  obtain ⟨behind, hword, rfl⟩ := Option.map_eq_some_iff.mp h
  have hvalue : (if returnValue line = "void".toList then [] else returnValue line) <+
      behind := by
    by_cases hvoid : returnValue line = "void".toList
    · rw [if_pos hvoid]
      exact List.nil_sublist _
    · rw [if_neg hvoid]
      simp only [returnValue] at hvoid ⊢
      split
      · rename_i hempty
        exact absurd (if_pos hempty) hvoid
      · rw [h, Option.getD_some]
        exact (stripSemicolon_sublist _).trans (stripLeft_sublist behind)
  calc "return".toList ++ (if returnValue line = "void".toList then [] else returnValue line)
      <+ "return".toList ++ behind := hvalue.append_left _
    _ = line := (after?_eq_some_iff.mp (Option.filter_eq_some_iff.mp hword).1).symm

/-- A statement and the lines below it are in the line that it begins on and the lines below
that. -/
theorem sublist_read (line : Text) (below : List Text) :
    (read line below).1.toList.flatMap Statement.substance ++ (read line below).2.flatten <+
      line ++ below.flatten := by
  cases hkind : lineKind line with
  | skipped =>
      rw [Source.read, hkind]
      exact List.sublist_append_right line _
  | function =>
      obtain ⟨name, hname⟩ := exists_functionName? hkind
      rw [Source.read, hkind, hname]
      rw [Option.toList_some, List.flatMap_singleton]
      exact (functionName?_sublist hname).append_right below.flatten
  | conditional =>
      rw [read_conditional hkind rfl rfl, Option.toList_some, List.flatMap_singleton]
      let body := bodyAfter (parenGroup line).2 below
      let first : Arm := ⟨orPlaceholder (parenGroup line).1, body.lines⟩
      let others := alternatives body.trailing body.rest
      calc first.substance ++ others.arms.flatMap Arm.substance ++ others.elseBody.flatten ++
            others.rest.flatten
          = first.substance ++ (others.substance ++ others.rest.flatten) := by
            rw [Alternatives.substance, List.append_assoc, List.append_assoc, List.append_assoc]
        _ <+ first.substance ++ (body.trailing ++ body.rest.flatten) :=
            (substance_alternatives_sublist _ _).append_left _
        _ <+ line ++ below.flatten :=
            substance_arm_sublist (opensGroup_of_conditional hkind) below rfl
  | loop =>
      obtain ⟨keyword, hkeyword⟩ := exists_loopKeyword? hkind
      obtain ⟨hopens, _, hparen⟩ := opensGroup_of_loopKeyword? hkeyword
      rw [read_loop hkind hkeyword rfl, Option.toList_some, List.flatMap_singleton]
      let group := parenGroup line
      let body := bodyAfter group.2 below
      have hbody : body.lines.flatten ++ body.rest.flatten <+ group.2 ++ below.flatten :=
        (Body.flatten_sublist_text body).trans (text_bodyAfter_sublist group.2 below)
      calc keyword ++ '(' :: (group.1 ++ body.lines.flatten) ++ body.rest.flatten
          = keyword ++ '(' :: (group.1 ++ (body.lines.flatten ++ body.rest.flatten)) := by
            simp only [List.append_assoc, List.cons_append]
        _ <+ keyword ++ '(' :: (group.1 ++ (group.2 ++ below.flatten)) :=
            ((hbody.append_left _).cons_cons '(').append_left _
        _ = keyword ++ '(' :: (group.1 ++ group.2) ++ below.flatten := by
            simp only [List.append_assoc, List.cons_append]
        _ <+ line ++ below.flatten := (sublist_of_opensGroup hparen hopens).append_right _
  | «variable» =>
      rw [Source.read, hkind, Option.toList_some, List.flatMap_singleton]
      exact (stripSemicolon_sublist line).append_right _
  | result =>
      obtain ⟨value, hvalue⟩ := exists_returned? hkind
      rw [Source.read, hkind, Option.toList_some, List.flatMap_singleton]
      exact (returnValue_sublist hvalue).append_right _
  | plain =>
      rw [Source.read, hkind, Option.toList_some, List.flatMap_singleton]
      exact List.Sublist.refl _

/-- The statements of a list of lines are in the lines, one behind the other. -/
theorem sublist_statements (lines : List Text) :
    (statements lines).flatMap Statement.substance <+ lines.flatten := by
  fun_induction statements lines with
  | case1 => exact List.Sublist.refl _
  | case2 line below _ ih =>
      rw [List.flatMap_append]
      exact (ih.append_left _).trans (sublist_read line below)

/-- The lines of a source are in the source. -/
theorem flatten_sourceLines_sublist (t : Text) : (sourceLines t).flatten <+ t :=
  (flatten_map_strip_sublist (lines t)).trans (flatten_lines_sublist t)

end Source

end Flowchart
