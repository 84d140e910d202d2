import Flowchart.Proofs.Source.Layout
import Flowchart.Proofs.Text.Lines

/-!
# Bodies on the line of their header

What stands behind a header on its line is its body when no brace opens there: all of it where no
`else` follows a semicolon (`bodyAfter_inline`), and else what stands before that semicolon
(`bodyAfter_cut`). The cut is made before the body is read, so a header in the body has no say in
it.

A header is a keyword with a condition in parentheses. It is read with its body
(`statements_header`), and that of a conditional with an `else` too (`statements_ifElse`).
-/

set_option autoImplicit false

namespace Flowchart

open Text

namespace Source

/-! ## Where a line is cut -/

/-- A text that opens with the word holds it. -/
theorem hasPart_of_elseTail? {t tail : Text} (h : cutAtElse.elseTail? t = some tail) :
    hasPart "else".toList t = true := by
  obtain ⟨rest, hrest, -⟩ := Option.bind_eq_some_iff.mp h
  obtain ⟨hafter, -⟩ := Option.filter_eq_some_iff.mp hrest
  rw [hasPart_iff]
  exact ⟨[], rest, (after?_eq_some_iff.mp hafter).symm⟩

/-- A text without the word is not cut. -/
theorem cutAtElse_of_hasPart {t : Text} (h : hasPart "else".toList t = false) :
    cutAtElse t = none := by
  induction t with
  | nil => rfl
  | cons c t ih =>
      have ht : hasPart "else".toList t = false := hasPart_of_append (s := [c]) h
      have htail : cutAtElse.elseTail? (stripLeft t) = none := by
        rw [Option.eq_none_iff_forall_ne_some]
        intro tail htail
        have hleft := hasPart_iff.mp (hasPart_of_elseTail? htail)
        have hpart := hasPart_iff.mpr (hleft.trans (List.dropWhile_suffix isBlank).isInfix)
        rw [ht] at hpart
        cases hpart
      rw [cutAtElse, ih ht, htail, ite_self]
      split
      · rfl
      · rfl

/-- A text without semicolons is not cut. -/
theorem cutAtElse_of_not_mem {t : Text} (h : ';' ∉ t) : cutAtElse t = none := by
  induction t with
  | nil => rfl
  | cons c t ih =>
      rw [List.mem_cons, not_or] at h
      rw [cutAtElse, ih h.2, if_neg (Ne.symm h.1)]
      split
      · rfl
      · rfl

/-- A text is cut at its first semicolon when an `else` follows there. -/
theorem cutAtElse_append {t u tail : Text} (hsemicolon : ';' ∉ t) (hfeed : '\n' ∉ t)
    (htail : cutAtElse.elseTail? (stripLeft u) = some tail) :
    cutAtElse (t ++ ';' :: u) = some (t, tail) := by
  induction t with
  | nil =>
      rw [List.nil_append, cutAtElse, if_neg (by decide), if_pos rfl, htail]
  | cons c t ih =>
      rw [List.mem_cons, not_or] at hsemicolon hfeed
      rw [List.cons_append, cutAtElse, if_neg (Ne.symm hfeed.1), if_neg (Ne.symm hsemicolon.1),
        ih hsemicolon.2 hfeed.2, Option.map_some]

/-- The `else` that a text is cut at is given back with what follows it. -/
theorem cutAtElse_else {t inline u : Text} (hsemicolon : ';' ∉ t) (hfeed : '\n' ∉ t)
    (hinline : Inline inline u) :
    cutAtElse (t ++ ("; else".toList ++ inline)) = some (t, "else".toList ++ inline) := by
  have hword : stripLeft (" else".toList ++ inline) = "else".toList ++ inline :=
    (stripLeft_append (b := [' ']) (by decide) _).trans
      (stripLeft_cons (c := 'e') (by decide) ("lse".toList ++ inline))
  have hunbroken : '\n' ∉ "else".toList ++ inline := by
    rw [List.mem_append, not_or]
    exact ⟨by decide, hinline.unbroken_inline⟩
  refine cutAtElse_append (u := " else".toList ++ inline) hsemicolon hfeed ?_
  obtain ⟨rest, hrest, -⟩ := Option.bind_eq_some_iff.mp (elseHeader?_else hinline)
  rw [hword, cutAtElse.elseTail?, hrest, Option.bind_some, lastLine?_of_not_mem hunbroken]

/-! ## Bodies beside their header -/

section Bodies

variable {inline : Text}

theorem bodyAfter_inline (hne : inline ≠ []) (hempty : inline ≠ [';'])
    (hbrace : startsWith ['{'] inline = false) (hcut : cutAtElse inline = none)
    (lines : List Text) : bodyAfter inline lines = ⟨[inline], [], lines⟩ := by
  rw [bodyAfter, if_neg (by simpa using hne), if_neg hempty, bodyBeside]
  simp only [after?_of_startsWith hbrace, hcut]

theorem bodyAfter_cut (hne : inline ≠ []) (hempty : inline ≠ [';'])
    (hbrace : startsWith ['{'] inline = false) {only trailing : Text}
    (hcut : cutAtElse inline = some (only, trailing)) (lines : List Text) :
    bodyAfter inline lines = ⟨[strip only], trailing, lines⟩ := by
  rw [bodyAfter, if_neg (by simpa using hne), if_neg hempty, bodyBeside]
  simp only [after?_of_startsWith hbrace, hcut]

end Bodies

end Source

/-! ## Headers -/

/-- A word that a condition in parentheses follows. -/
inductive Keyword where
  | conditional
  | forLoop
  | whileLoop
deriving DecidableEq, Repr

def Keyword.text : Keyword → Text
  | conditional => "if".toList
  | forLoop => "for".toList
  | whileLoop => "while".toList

/-- A keyword with its condition, which may have blanks at its ends. -/
structure Header where
  keyword : Keyword
  condition : Text
  balanced : condition.Balanced

namespace Header

def text (h : Header) : Text := h.keyword.text ++ " (".toList ++ h.condition ++ ")".toList

/-- The statement that a header makes with its body. -/
def statement (h : Header) (body : List Text) (line : Text) : Statement :=
  match h.keyword with
  | .conditional =>
      .conditional ⟨Source.orPlaceholder (strip h.condition), body⟩ [] [] line
  | keyword => .loop keyword.text (strip h.condition) body line

theorem tight_text (h : Header) : h.text.Tight := by
  have hkeyword : ∃ d u, h.keyword.text ++ " (".toList = d :: u ∧ isBlank d = false := by
    cases h.keyword with
    | conditional => exact ⟨'i', "f (".toList, rfl, by decide⟩
    | forLoop => exact ⟨'f', "or (".toList, rfl, by decide⟩
    | whileLoop => exact ⟨'w', "hile (".toList, rfl, by decide⟩
  exact Text.tight_append hkeyword ⟨[], ')', rfl, by decide⟩ h.condition

theorem tight_line (h : Header) {t : Text} (ht : t.Tight) : (h.text ++ ' ' :: t).Tight := by
  have htight := Text.tight_append h.tight_text.first ht.last [' ']
  rwa [List.append_assoc, List.singleton_append] at htight

theorem unbroken_text (h : Header) (hcondition : h.condition.Unbroken) : h.text.Unbroken := by
  have hkeyword : h.keyword.text.Unbroken := by
    cases h.keyword <;> decide
  simp only [text, unbroken_append]
  exact ⟨⟨⟨hkeyword, by decide⟩, hcondition⟩, by decide⟩

/-- A header begins with its keyword, so with no brace and no semicolon. -/
theorem head_text (h : Header) (t : Text) :
    startsWith ['{'] (h.text ++ t) = false ∧ h.text ++ t ≠ [] ∧ h.text ++ t ≠ [';'] := by
  obtain ⟨keyword, condition, balanced⟩ := h
  cases keyword with
  | conditional => exact ⟨rfl, nofun, nofun⟩
  | forLoop => exact ⟨rfl, nofun, nofun⟩
  | whileLoop => exact ⟨rfl, nofun, nofun⟩

end Header

namespace Source

theorem parenGroup_text (h : Header) {inline t : Text} (hinline : Inline inline t) :
    parenGroup (h.text ++ inline) = (strip h.condition, t) := by
  have hkeyword : '(' ∉ h.keyword.text := by
    cases h.keyword <;> decide
  exact parenGroup_keyword hkeyword h.balanced hinline

/-- A header with its body, and no `else` behind it. -/
theorem statements_header (h : Header) {inline t : Text} {below body : List Text}
    (hinline : Inline inline t) (hbody : bodyAfter t below = ⟨body, [], []⟩) :
    statements ((h.text ++ inline) :: below) = [h.statement body (h.text ++ inline)] := by
  have hgroup := parenGroup_text h hinline
  have hloop : ∀ {keyword : Text}, lineKind (h.text ++ inline) = .loop →
      loopKeyword? (h.text ++ inline) = some keyword →
        statements ((h.text ++ inline) :: below) =
          [.loop keyword (strip h.condition) body (h.text ++ inline)] := by
    intro keyword hkind hkeyword
    have hread := read_loop hkind hkeyword (by rw [hgroup, hbody])
    rw [hgroup] at hread
    rw [statements_of_read hread, statements_nil]
  obtain ⟨keyword, condition, balanced⟩ := h
  cases keyword with
  | conditional =>
      have hkind : lineKind (Header.text ⟨.conditional, condition, balanced⟩ ++ inline) =
          .conditional := rfl
      have hread := read_conditional hkind (by rw [hgroup, hbody]) (alternatives_of_none rfl)
      rw [hgroup] at hread
      rw [statements_of_read hread, statements_nil]
      rfl
  | forLoop => exact hloop rfl rfl
  | whileLoop => exact hloop rfl rfl

/-- A conditional with its last `else` behind the first body. -/
theorem statements_ifElse {condition : Text} (balanced : condition.Balanced)
    {inline t inline' t' : Text} {below body rest elseBody : List Text} (hinline : Inline inline t)
    (hbody : bodyAfter t below = ⟨body, "else".toList ++ inline', rest⟩) (helse : Inline inline' t')
    (hkind : lineKind t' ≠ .conditional) (hlast : bodyAfter t' rest = ⟨elseBody, [], []⟩) :
    statements ((Header.text ⟨.conditional, condition, balanced⟩ ++ inline) :: below) =
      [.conditional ⟨orPlaceholder (strip condition), body⟩ [] elseBody
        (Header.text ⟨.conditional, condition, balanced⟩ ++ inline)] := by
  have hgroup := parenGroup_text ⟨.conditional, condition, balanced⟩ hinline
  have hafter : elseAfter ("else".toList ++ inline') rest = (some t', rest) := by
    rw [elseAfter_of_ne (by simp), elseHeader?_else helse, Option.map_some, helse.strip_self]
  have hline : lineKind (Header.text ⟨.conditional, condition, balanced⟩ ++ inline) =
      .conditional := rfl
  have hread := read_conditional hline (by rw [hgroup, hbody])
    (alternatives_of_last hafter hkind hlast)
  rw [hgroup] at hread
  rw [statements_of_read hread, statements_nil]

end Source

end Flowchart
