import Flowchart.Mermaid.Check
import Flowchart.Proofs.Text.Cuts

/-!
# The forms of lines

A line of a diagram draws an edge when it is two words with an arrow between them, perhaps with a
label, and it declares an identifier when it begins with a word and an opening mark. The two forms
are stated here by how such lines are put together (`DrawsEdge`, `Declares`), and the readers accept
these lines and no others (`element_eq_edge_iff`, `element_eq_declaration_iff`).

The readers take as much as they can at every step, and lose nothing by it: where a word ends, a
blank or a mark begins, and the other way round. For the same reason no line has both forms
(`Declares.not_drawsEdge`).
-/

set_option autoImplicit false

open scoped List

namespace Flowchart.Mermaid

open Text

/-! ## Forms -/

/-- At least one blank, and nothing else. -/
def IsGap (t : Text) : Prop := t ≠ [] ∧ isAllBlank t = true

/-- The label behind an arrow: nothing, or a text without bars between two bars. -/
def IsEdgeLabel (t : Text) : Prop := t = [] ∨ ∃ label, t = '|' :: label ++ ['|'] ∧ '|' ∉ label

/-- The line draws an edge: an arrow between two words. -/
def DrawsEdge (line source target : Text) : Prop :=
  source.IsWord ∧ target.IsWord ∧ ∃ before label behind rest, IsGap before ∧ IsEdgeLabel label ∧
    IsGap behind ∧ isAllBlank rest = true ∧
      line = source ++ (before ++ ("-->".toList ++ (label ++ (behind ++ (target ++ rest)))))

/-- The marks that the label of a node can open with. -/
def openingMarks : List Text := ["((".toList, ['['], ['{']]

/-- The line declares an identifier: a word in front of an opening mark. -/
def Declares (line id : Text) : Prop :=
  id.IsWord ∧ ∃ blanks, isAllBlank blanks = true ∧ ∃ mark ∈ openingMarks, ∃ rest,
    line = id ++ (blanks ++ (mark ++ rest))

/-! ## Words, blanks and labels -/

theorem not_isWord_of_isBlank {c : Char} (h : isBlank c = true) : isWord c = false := by
  rw [Bool.eq_false_iff]
  intro hword
  rw [isBlank_of_isWord hword] at h
  cases h

theorem IsGap.exists_cons {gap : Text} (h : IsGap gap) :
    ∃ c u, gap = c :: u ∧ isBlank c = true ∧ isWord c = false := by
  obtain ⟨c, u, rfl⟩ := List.exists_cons_of_ne_nil h.1
  have hc := (List.forall_mem_cons.mp (List.all_eq_true.mp h.2)).1
  exact ⟨c, u, rfl, hc, not_isWord_of_isBlank hc⟩

/-- A word is read up to where it ends. -/
theorem word?_eq_some_iff {t word rest : Text} :
    word? t = some (word, rest) ↔
      t = word ++ rest ∧ word.IsWord ∧ ∀ c ∈ rest.head?, isWord c = false := by
  constructor
  · intro h
    rw [word?] at h
    split at h
    · cases h
    · rename_i hempty
      obtain ⟨htake, hdrop⟩ := Prod.mk.inj (Option.some.inj h)
      obtain ⟨ht, hword, hend⟩ := takeWhile_dropWhile_iff.mp ⟨htake, hdrop⟩
      have hne : word ≠ [] := by simpa [htake] using hempty
      exact ⟨ht, ⟨hne, hword⟩, hend⟩
  · rintro ⟨ht, ⟨hne, hword⟩, hend⟩
    obtain ⟨htake, hdrop⟩ := takeWhile_dropWhile_iff.mpr ⟨ht, hword, hend⟩
    have hempty : ¬ word.isEmpty = true := by simpa using hne
    rw [word?, htake, hdrop]
    simp only [if_neg hempty]

theorem word?_gap {word gap : Text} (hword : word.IsWord) (hgap : IsGap gap) (rest : Text) :
    word? (word ++ (gap ++ rest)) = some (word, gap ++ rest) := by
  refine word?_eq_some_iff.mpr ⟨rfl, hword, ?_⟩
  obtain ⟨c, u, rfl, -, hc⟩ := hgap.exists_cons
  rintro _ ⟨rfl⟩
  exact hc

theorem afterBlanks?_eq_some_iff {t rest : Text} :
    afterBlanks? t = some rest ↔
      ∃ gap, IsGap gap ∧ t = gap ++ rest ∧ ∀ c ∈ rest.head?, isBlank c = false := by
  constructor
  · intro h
    cases t with
    | nil => cases h
    | cons c t =>
        rw [afterBlanks?] at h
        split at h
        · rename_i hc
          obtain rfl := Option.some.inj h
          obtain ⟨blanks, hblanks, ht, hhead⟩ := exists_stripLeft t
          have hgap : isAllBlank (c :: blanks) = true :=
            List.all_eq_true.mpr (List.forall_mem_cons.mpr ⟨hc, List.all_eq_true.mp hblanks⟩)
          exact ⟨c :: blanks, ⟨List.cons_ne_nil _ _, hgap⟩, congrArg (c :: ·) ht, hhead⟩
        · cases h
  · rintro ⟨gap, ⟨hne, hblank⟩, rfl, hhead⟩
    obtain ⟨c, blanks, rfl⟩ := List.exists_cons_of_ne_nil hne
    obtain ⟨hc, hblanks⟩ := List.forall_mem_cons.mp (List.all_eq_true.mp hblank)
    rw [List.cons_append, afterBlanks?, if_pos hc,
      stripLeft_append_of_head (List.all_eq_true.mpr hblanks) hhead]

/-- A label between bars is passed over, as long as it holds no bar itself. -/
theorem afterEdgeLabel?_bars {label : Text} (h : '|' ∉ label) (rest : Text) :
    afterEdgeLabel? ('|' :: label ++ '|' :: rest) = some rest := by
  have hopen : after? ['|'] ('|' :: label ++ '|' :: rest) = some (label ++ '|' :: rest) :=
    after?_append ['|'] _
  have hcut : cutAt '|' (label ++ '|' :: rest) = some (label, rest) :=
    cutAt_eq_some_iff.mpr ⟨rfl, h⟩
  rw [afterEdgeLabel?, hopen]
  simp only [hcut, Option.map_some]

/-- A label is passed over where there is one, and a bar that opens none ends the reading. -/
theorem afterEdgeLabel?_eq_some_iff {t rest : Text} :
    afterEdgeLabel? t = some rest ↔
      ∃ label, IsEdgeLabel label ∧ t = label ++ rest ∧ (label = [] → rest.head? ≠ some '|') := by
  constructor
  · intro h
    unfold afterEdgeLabel? at h
    split at h
    · rename_i u hu
      obtain ⟨⟨label, rest'⟩, hcut, rfl⟩ := Option.map_eq_some_iff.mp h
      obtain ⟨hsplit, hbar⟩ := cutAt_eq_some_iff.mp hcut
      refine ⟨'|' :: label ++ ['|'], Or.inr ⟨label, rfl, hbar⟩, ?_, nofun⟩
      rw [after?_eq_some_iff.mp hu, hsplit]
      simp
    · rename_i hnone
      obtain rfl := Option.some.inj h
      refine ⟨[], Or.inl rfl, rfl, fun _ hhead => ?_⟩
      obtain ⟨u, rfl⟩ : ∃ u, t = '|' :: u := by
        cases t with
        | nil => cases hhead
        | cons c u => exact ⟨u, congrArg (· :: u) (Option.some.inj hhead)⟩
      exact absurd hnone (by simp [after?])
  · rintro ⟨_, rfl | ⟨label, rfl, hbar⟩, ht, hhead⟩
    · rw [List.nil_append] at ht
      have hnone : after? ['|'] rest = none := by
        cases rest with
        | nil => rfl
        | cons c rest => exact if_neg fun heq => hhead rfl (congrArg some heq.symm)
      rw [ht, afterEdgeLabel?, hnone]
    · have hbars := afterEdgeLabel?_bars hbar rest
      rw [ht]
      simpa using hbars

/-! ## Edges and declarations -/

/-- A line is read as an edge exactly when it draws one. -/
theorem edgeEnds?_eq_some_iff {line source target : Text} :
    edgeEnds? line = some (source, target) ↔ DrawsEdge line source target := by
  unfold edgeEnds?
  simp only [Option.bind_eq_bind, Option.bind_eq_some_iff, Prod.exists]
  constructor
  · rintro ⟨s, t1, hs, t2, ht2, t3, ht3, t4, ht4, t5, ht5, u, t6, hu, hend⟩
    obtain ⟨rfl, hsource, -⟩ := word?_eq_some_iff.mp hs
    obtain ⟨before, hbefore, rfl, -⟩ := afterBlanks?_eq_some_iff.mp ht2
    obtain rfl := after?_eq_some_iff.mp ht3
    obtain ⟨label, hlabel, rfl, -⟩ := afterEdgeLabel?_eq_some_iff.mp ht4
    obtain ⟨behind, hbehind, rfl, -⟩ := afterBlanks?_eq_some_iff.mp ht5
    obtain ⟨rfl, htarget, -⟩ := word?_eq_some_iff.mp hu
    split at hend
    · rename_i hrest
      simp only [Option.some.injEq, Prod.mk.injEq] at hend
      obtain ⟨rfl, rfl⟩ := hend
      exact ⟨hsource, htarget, before, label, behind, t6, hbefore, hlabel, hbehind, hrest, rfl⟩
    · cases hend
  · rintro ⟨hsource, htarget, before, label, behind, rest, hbefore, hlabel, hbehind, hrest, rfl⟩
    obtain ⟨b, behind', rfl, hb, -⟩ := hbehind.exists_cons
    obtain ⟨t, target', rfl, ht⟩ := htarget.tight.first
    refine ⟨source, _, word?_gap hsource hbefore _,
      _, afterBlanks?_eq_some_iff.mpr ⟨_, hbefore, rfl, ?_⟩,
      _, after?_append _ _,
      _, afterEdgeLabel?_eq_some_iff.mpr ⟨label, hlabel, rfl, ?_⟩,
      _, afterBlanks?_eq_some_iff.mpr ⟨_, hbehind, rfl, ?_⟩,
      _, rest, word?_eq_some_iff.mpr ⟨rfl, htarget, ?_⟩, if_pos hrest⟩
    · rintro _ ⟨rfl⟩
      decide
    · rintro - ⟨rfl⟩
      exact absurd hb (by decide)
    · rintro _ ⟨rfl⟩
      exact ht
    · intro c hc
      exact not_isWord_of_isBlank (List.all_eq_true.mp hrest c (List.mem_of_mem_head? hc))

theorem startsWith_openingMark (t : Text) :
    (startsWith "((".toList t || startsWith ['['] t || startsWith ['{'] t) = true ↔
      ∃ mark ∈ openingMarks, mark <+: t := by
  simp only [Bool.or_eq_true, startsWith_iff, openingMarks, List.mem_cons, List.not_mem_nil,
    or_false, exists_eq_or_imp, exists_eq_left, or_assoc]

/-- An opening mark is neither a blank, nor part of a word or an arrow. -/
theorem exists_openingMark_eq {mark : Text} (h : mark ∈ openingMarks) :
    ∃ c u, mark = c :: u ∧ isBlank c = false ∧ isWord c = false ∧ c ≠ '-' := by
  simp only [openingMarks, List.mem_cons, List.not_mem_nil, or_false] at h
  rcases h with rfl | rfl | rfl
  · exact ⟨'(', ['('], by decide⟩
  · exact ⟨'[', [], by decide⟩
  · exact ⟨'{', [], by decide⟩

theorem stripLeft_openingMark {blanks mark : Text} (hblanks : isAllBlank blanks = true)
    (hmark : mark ∈ openingMarks) (rest : Text) :
    stripLeft (blanks ++ (mark ++ rest)) = mark ++ rest := by
  obtain ⟨c, u, rfl, hc, -⟩ := exists_openingMark_eq hmark
  refine stripLeft_append_of_head hblanks ?_
  rintro _ ⟨rfl⟩
  exact hc

theorem word?_declaration {id blanks mark : Text} (hid : id.IsWord)
    (hblanks : isAllBlank blanks = true) (hmark : mark ∈ openingMarks) (rest : Text) :
    word? (id ++ (blanks ++ (mark ++ rest))) = some (id, blanks ++ (mark ++ rest)) := by
  refine word?_eq_some_iff.mpr ⟨rfl, hid, ?_⟩
  cases blanks with
  | nil =>
      obtain ⟨c, u, rfl, -, hc, -⟩ := exists_openingMark_eq hmark
      rintro _ ⟨rfl⟩
      exact hc
  | cons c blanks =>
      rintro _ ⟨rfl⟩
      exact not_isWord_of_isBlank (List.all_eq_true.mp hblanks c List.mem_cons_self)

/-- A line is read as a declaration exactly when it is one. -/
theorem declared?_eq_some_iff {line id : Text} : declared? line = some id ↔ Declares line id := by
  unfold declared?
  simp only [Option.bind_eq_bind, Option.bind_eq_some_iff, Prod.exists]
  constructor
  · rintro ⟨word, t, hword, hmark⟩
    obtain ⟨rfl, hid, -⟩ := word?_eq_some_iff.mp hword
    obtain ⟨blanks, hblanks, ht, -⟩ := exists_stripLeft t
    split at hmark
    · rename_i hstart
      obtain rfl := Option.some.inj hmark
      obtain ⟨mark, hmark, rest, hrest⟩ := (startsWith_openingMark _).mp hstart
      exact ⟨hid, blanks, hblanks, mark, hmark, rest, by rw [hrest, ← ht]⟩
    · cases hmark
  · rintro ⟨hid, blanks, hblanks, mark, hmark, rest, rfl⟩
    refine ⟨id, _, word?_declaration hid hblanks hmark rest, ?_⟩
    rw [stripLeft_openingMark hblanks hmark]
    exact if_pos ((startsWith_openingMark _).mpr ⟨mark, hmark, List.prefix_append mark rest⟩)

/-- Behind its first word a line goes on with an opening mark or with an arrow, not with both. -/
theorem Declares.not_drawsEdge {line id source target : Text} (h : Declares line id) :
    ¬ DrawsEdge line source target := by
  rintro ⟨hsource, -, before, label, behind, rest', hbefore, -, -, -, hline⟩
  obtain ⟨hid, blanks, hblanks, mark, hmark, rest, rfl⟩ := h
  have harrow : ∀ c ∈ ("-->".toList ++ (label ++ (behind ++ (target ++ rest')))).head?,
      isBlank c = false := by
    rintro _ ⟨rfl⟩
    decide
  have hword := word?_declaration hid hblanks hmark rest
  rw [hline, word?_gap hsource hbefore] at hword
  have hstrip := congrArg stripLeft (Prod.mk.inj (Option.some.inj hword)).2
  rw [stripLeft_openingMark hblanks hmark, stripLeft_append_of_head hbefore.2 harrow] at hstrip
  obtain ⟨c, u, rfl, -, -, hc⟩ := exists_openingMark_eq hmark
  exact hc (List.cons.inj hstrip).1.symm

theorem element_eq_edge_iff {line source target : Text} :
    element line = .edge source target ↔ DrawsEdge line source target := by
  rw [← edgeEnds?_eq_some_iff, element]
  cases hends : edgeEnds? line with
  | some ends => simp [Prod.ext_iff]
  | none =>
      cases declared? line with
      | none => simp
      | some id => simp

theorem element_eq_declaration_iff {line id : Text} :
    element line = .declaration id ↔ Declares line id := by
  constructor
  · intro h
    rw [← declared?_eq_some_iff]
    unfold element at h
    cases hends : edgeEnds? line with
    | some ends => simp [hends] at h
    | none =>
        cases hdeclared : declared? line with
        | none => simp [hends, hdeclared] at h
        | some other => simpa [hends, hdeclared] using h
  · intro h
    have hnone : edgeEnds? line = none := by
      rw [Option.eq_none_iff_forall_ne_some]
      rintro ⟨source, target⟩ hends
      exact h.not_drawsEdge (edgeEnds?_eq_some_iff.mp hends)
    rw [element, hnone, declared?_eq_some_iff.mpr h]

end Flowchart.Mermaid
