import Flowchart.Mermaid.Render
import Flowchart.Proofs.Text.Lines

/-!
# The characters of labels

`escapeText` keeps out what would end a label or a line, and brings in nothing but blanks and
single quotes (`mem_escapeText`). Main statement: escaping a label gives a safe text, does nothing
more the second time, and loses nothing but brackets and blanks (`escapeLabel_sound`).

Safe texts are the ones that are escaped to themselves (`escapeText_of_isSafe`). What is lost is
read off by leaving out the blanks on both sides: replacing quotes and dropping brackets can be done
in either order with that.
-/

set_option autoImplicit false

namespace Flowchart.Mermaid

open Text

theorem mem_escapeText {t : Text} {c : Char} (h : c ∈ escapeText t) :
    (c ∈ t ∨ c = ' ' ∨ c = '\'') ∧ c ≠ '\n' ∧ c ≠ '\r' ∧ c ≠ '"' ∧ isBracket c = false := by
  obtain ⟨hreplaced, hbracket⟩ := List.mem_filter.mp (mem_of_mem_strip h)
  have hbracket' : isBracket c = false := by simpa using hbracket
  obtain ⟨d, hd, hc⟩ := List.mem_flatMap.mp hreplaced
  have hjoined : (d ∈ t ∨ d = ' ') ∧ d ≠ '\n' ∧ d ≠ '\r' := by
    rcases mem_join hd with hblank | ⟨line, hline, hmem⟩
    · rw [List.mem_singleton.mp hblank]
      exact ⟨Or.inr rfl, by decide, by decide⟩
    · obtain ⟨hmem, hends⟩ := mem_lines hline hmem
      exact ⟨Or.inl hmem, hends⟩
  by_cases hquote : d = '"'
  · rw [if_pos hquote] at hc
    rw [List.mem_singleton.mp hc] at hbracket' ⊢
    exact ⟨Or.inr (Or.inr rfl), by decide, by decide, by decide, hbracket'⟩
  · rw [if_neg hquote] at hc
    obtain rfl := List.mem_singleton.mp hc
    obtain ⟨hmem, hfeed, hreturn⟩ := hjoined
    exact ⟨hmem.imp_right Or.inl, hfeed, hreturn, hquote, hbracket'⟩

theorem lineFeed_not_mem_escapeLabel (v : Value) : '\n' ∉ escapeLabel v :=
  fun h => (mem_escapeText h).2.1 rfl

/-! ## Safe texts -/

def brackets : Text := ['{', '}', '(', ')', '[', ']']

/-- A text that can stand in a label: it holds no bracket, no double quote and no line end, and it
neither begins nor ends in a blank. -/
structure IsSafe (t : Text) : Prop where
  plain : ∀ c ∈ t, c ∉ brackets ∧ c ≠ '"' ∧ c ≠ '\r' ∧ c ≠ '\n'
  first : ∀ c ∈ t.head?, isBlank c = false
  last : ∀ c ∈ t.getLast?, isBlank c = false

theorem isBracket_iff {c : Char} : isBracket c = true ↔ c ∈ brackets := by
  simp [isBracket, brackets, or_assoc]

theorem isSafe_escapeText (t : Text) : IsSafe (escapeText t) where
  plain := by
    intro c hc
    obtain ⟨-, hfeed, hreturn, hquote, hbracket⟩ := mem_escapeText hc
    refine ⟨?_, hquote, hreturn, hfeed⟩
    rw [← isBracket_iff, hbracket]
    exact Bool.false_ne_true
  first := fun _ => isBlank_of_head?_strip
  last := fun _ => isBlank_of_getLast?_strip

/-! ## Quotes -/

/-- A single quote for a double one. -/
def unquoted (c : Char) : Char := if c = '"' then '\'' else c

theorem replaceChar_quote (t : Text) : replaceChar '"' ['\''] t = t.map unquoted := by
  rw [replaceChar, List.map_eq_flatMap]
  refine List.flatMap_congr fun c _ => ?_
  unfold unquoted
  split <;> rfl

/-- A property that does not tell the two quotes apart can be asked for before or behind the change
of quotes. -/
theorem filter_map_unquoted {p : Char → Bool} (h : p '\'' = p '"') (t : Text) :
    (t.map unquoted).filter p = (t.filter p).map unquoted := by
  have hsame : p ∘ unquoted = p := by
    funext c
    by_cases hc : c = '"'
    · rw [Function.comp_apply, unquoted, if_pos hc, hc, h]
    · rw [Function.comp_apply, unquoted, if_neg hc]
  rw [List.filter_map, hsame]

theorem escapeText_eq (t : Text) :
    escapeText t = strip (((joinLines [' '] t).map unquoted).filter fun c => !isBracket c) := by
  rw [escapeText, replaceChar_quote]

/-! ## Escaping -/

/-- A safe text is escaped to itself. -/
theorem escapeText_of_isSafe {t : Text} (h : IsSafe t) : escapeText t = t := by
  have hlines : joinLines [' '] t = t := by
    have hunbroken : t.Unbroken := ⟨fun hmem => (h.plain _ hmem).2.2.2 rfl,
      fun hmem => (h.plain _ hmem).2.2.1 rfl⟩
    rw [joinLines, lines_of_unbroken hunbroken, join]
  have hquotes : t.map unquoted = t := by
    have hkeep : ∀ c ∈ t, unquoted c = id c := fun c hc => if_neg (h.plain c hc).2.1
    rw [List.map_congr_left hkeep, List.map_id]
  have hbrackets : t.filter (fun c => !isBracket c) = t := by
    rw [List.filter_eq_self]
    intro c hc
    rw [Bool.not_eq_true', ← Bool.not_eq_true, isBracket_iff]
    exact (h.plain c hc).1
  rw [escapeText_eq, hlines, hquotes, hbrackets, strip_of_ends h.first h.last]

/-- Apart from blanks, a text loses its brackets when it is escaped and nothing else. -/
theorem solid_escapeText (t : Text) :
    solid (escapeText t) = solid ((t.filter fun c => !isBracket c).map unquoted) := by
  have hblank : isAllBlank [' '] = true := by decide
  have hlines : solid (joinLines [' '] t) = solid t := by
    rw [joinLines, solid_join hblank, solid_flatten_lines]
  calc solid (escapeText t)
      = solid (((joinLines [' '] t).filter fun c => !isBracket c).map unquoted) := by
        rw [escapeText_eq, solid_strip, filter_map_unquoted (by decide)]
    _ = ((solid (joinLines [' '] t)).filter fun c => !isBracket c).map unquoted := by
        rw [solid, filter_map_unquoted (by decide), List.filter_comm, solid]
    _ = ((solid t).filter fun c => !isBracket c).map unquoted := by
        rw [hlines]
    _ = solid ((t.filter fun c => !isBracket c).map unquoted) := by
        rw [solid, solid, filter_map_unquoted (by decide), List.filter_comm]

theorem escapeLabel_text (t : Text) : escapeLabel (.text t) = escapeText t := by
  cases t with
  | nil => rfl
  | cons c t => rfl

/-- Escaping a label makes it safe, does nothing more the second time, and keeps what the label
says: without blanks it is the label without brackets, with single quotes for double ones. -/
theorem escapeLabel_sound (t : Text) :
    IsSafe (escapeLabel (.text t)) ∧
      escapeLabel (.text (escapeLabel (.text t))) = escapeLabel (.text t) ∧
      solid (escapeLabel (.text t)) = solid ((t.filter fun c => c ∉ brackets).map unquoted) := by
  have hbrackets : (fun c => !isBracket c) = fun c : Char => decide (c ∉ brackets) := by
    funext c
    rw [Bool.eq_iff_iff, Bool.not_eq_true', ← Bool.not_eq_true, isBracket_iff, decide_eq_true_eq]
  simp only [escapeLabel_text]
  refine ⟨isSafe_escapeText t, escapeText_of_isSafe (isSafe_escapeText t), ?_⟩
  rw [solid_escapeText, hbrackets]

end Flowchart.Mermaid
