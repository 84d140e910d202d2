import Flowchart.Proofs.Text.Character
import Flowchart.Text.Lines
import Mathlib.Data.List.TakeWhile

/-!
# Cutting texts and putting them together

How the cuts undo each other: a text that begins and ends in characters other than blanks is left
alone by `strip`, lines that are joined are found again by `pieces` (`pieces_join`), and the
characters of lines and joined texts are those of what they are made of.
-/

set_option autoImplicit false

open scoped List

namespace Flowchart.Text

/-! ## Blanks at the ends -/

/-- A text begins and ends in characters that are no blanks. -/
structure Tight (t : Text) : Prop where
  first : ∃ c u, t = c :: u ∧ isBlank c = false
  last : ∃ u c, t = u ++ [c] ∧ isBlank c = false

theorem stripLeft_cons {c : Char} (h : isBlank c = false) (t : Text) :
    stripLeft (c :: t) = c :: t := by
  rw [stripLeft, List.dropWhile_cons_of_neg]
  simp [h]

theorem stripRight_concat {c : Char} (h : isBlank c = false) (t : Text) :
    stripRight (t ++ [c]) = t ++ [c] := by
  rw [stripRight, List.reverse_append, List.reverse_singleton, List.singleton_append,
    List.dropWhile_cons_of_neg (by simp [h]), List.reverse_cons, List.reverse_reverse]

theorem Tight.stripLeft {t : Text} (h : t.Tight) : stripLeft t = t := by
  obtain ⟨c, u, rfl, hc⟩ := h.first
  exact stripLeft_cons hc u

theorem Tight.strip {t : Text} (h : t.Tight) : strip t = t := by
  rw [Text.strip, h.stripLeft]
  obtain ⟨u, c, rfl, hc⟩ := h.last
  exact stripRight_concat hc u

/-- A text is tight when it begins like one tight text and ends like another. -/
theorem tight_append {s t : Text} (hs : ∃ c v, s = c :: v ∧ isBlank c = false)
    (ht : ∃ v c, t = v ++ [c] ∧ isBlank c = false) (u : Text) : Tight (s ++ u ++ t) := by
  obtain ⟨c, v, rfl, hc⟩ := hs
  obtain ⟨w, d, rfl, hd⟩ := ht
  exact ⟨⟨c, v ++ u ++ (w ++ [d]), by simp, hc⟩, c :: v ++ u ++ w, d, by simp, hd⟩

theorem Tight.not_isAllBlank {t : Text} (h : t.Tight) : isAllBlank t = false := by
  obtain ⟨c, u, rfl, hc⟩ := h.first
  simp [isAllBlank, hc]

theorem stripLeft_append {b : Text} (hb : isAllBlank b = true) (t : Text) :
    stripLeft (b ++ t) = stripLeft t :=
  List.dropWhile_append_of_pos (List.all_eq_true.mp hb)

/-- Blanks are stripped off a text up to where something else begins. -/
theorem stripLeft_append_cons {c : Char} (h : isBlank c = false) (t u : Text) :
    stripLeft (t ++ c :: u) = stripLeft t ++ c :: u := by
  rw [stripLeft, List.dropWhile_append]
  split
  · rename_i hempty
    rw [stripLeft, List.isEmpty_iff.mp hempty, List.nil_append]
    exact stripLeft_cons h u
  · rfl

theorem exists_stripLeft (t : Text) :
    ∃ blanks, isAllBlank blanks = true ∧ t = blanks ++ stripLeft t ∧
      ∀ c ∈ (stripLeft t).head?, isBlank c = false := by
  obtain ⟨ht, hblanks, hhead⟩ := (takeWhile_dropWhile_iff (p := isBlank) (t := t)).mp ⟨rfl, rfl⟩
  exact ⟨t.takeWhile isBlank, List.all_eq_true.mpr hblanks, ht, hhead⟩

/-- Blanks are stripped up to where something else begins, or the text ends. -/
theorem stripLeft_append_of_head {blanks rest : Text} (hblanks : isAllBlank blanks = true)
    (hrest : ∀ c ∈ rest.head?, isBlank c = false) : stripLeft (blanks ++ rest) = rest :=
  (takeWhile_dropWhile_iff.mpr ⟨rfl, List.all_eq_true.mp hblanks, hrest⟩).2

theorem stripLeft_stripLeft (t : Text) : stripLeft (stripLeft t) = stripLeft t := by
  induction t with
  | nil => rfl
  | cons c t ih =>
      by_cases hc : isBlank c = true
      · have hdrop : stripLeft (c :: t) = stripLeft t := List.dropWhile_cons_of_pos hc
        rw [hdrop, ih]
      · have hkeep : stripLeft (c :: t) = c :: t := stripLeft_cons (by simpa using hc) t
        rw [hkeep, hkeep]

theorem strip_stripLeft (t : Text) : strip (stripLeft t) = strip t := by
  rw [strip, stripLeft_stripLeft, strip]

/-- Blanks before a text make no difference when it is stripped. -/
theorem strip_append {b : Text} (hb : isAllBlank b = true) (t : Text) :
    strip (b ++ t) = strip t := by
  rw [strip, stripLeft_append hb, strip]

/-- A tight text is found between blanks. -/
theorem Tight.strip_between {t : Text} (h : t.Tight) {a b : Text} (ha : isAllBlank a = true)
    (hb : isAllBlank b = true) : Text.strip (a ++ t ++ b) = t := by
  have hleft : Text.stripLeft (t ++ b) = t ++ b := by
    obtain ⟨c, u, rfl, hc⟩ := h.first
    exact stripLeft_cons hc (u ++ b)
  have hright : stripRight (t ++ b) = stripRight t := by
    have hb' : ∀ c ∈ b.reverse, isBlank c = true := fun c hc =>
      List.all_eq_true.mp hb c (List.mem_reverse.mp hc)
    rw [stripRight, List.reverse_append, List.dropWhile_append_of_pos hb', stripRight]
  rw [List.append_assoc, strip_append ha, Text.strip, hleft, hright]
  obtain ⟨u, c, rfl, hc⟩ := h.last
  exact stripRight_concat hc u

theorem head_dropWhile_isBlank {t u : Text} {c : Char} (h : t.dropWhile isBlank = c :: u) :
    isBlank c = false :=
  (takeWhile_dropWhile_iff.mp ⟨rfl, h⟩).2.2 c rfl

theorem strip_eq_nil_iff {t : Text} : strip t = [] ↔ isAllBlank t = true := by
  constructor
  · intro h
    rw [strip, stripRight, List.reverse_eq_nil_iff, List.dropWhile_eq_nil_iff] at h
    cases hleft : stripLeft t with
    | nil => exact List.all_eq_true.mpr (List.dropWhile_eq_nil_iff.mp hleft)
    | cons c u =>
        -- What is left begins with no blank, and would hold blanks only.
        have hc : isBlank c = true := h c (by rw [hleft]; simp)
        rw [head_dropWhile_isBlank hleft] at hc
        exact absurd hc (by decide)
  · intro h
    have hleft : stripLeft t = [] := List.dropWhile_eq_nil_iff.mpr (List.all_eq_true.mp h)
    rw [strip, hleft]
    rfl

/-- What is left of a text that is not blank begins and ends in other characters. -/
theorem tight_strip {t : Text} (h : strip t ≠ []) : (strip t).Tight := by
  have hlast : ∃ u c, strip t = u ++ [c] ∧ isBlank c = false := by
    cases hreverse : (stripLeft t).reverse.dropWhile isBlank with
    | nil => exact absurd (by rw [strip, stripRight, hreverse, List.reverse_nil]) h
    | cons c u =>
        refine ⟨u.reverse, c, ?_, head_dropWhile_isBlank hreverse⟩
        rw [strip, stripRight, hreverse, List.reverse_cons]
  refine ⟨?_, hlast⟩
  -- Stripping the end goes no further than the last of the characters that stay.
  obtain ⟨c, u, hstrip⟩ := List.exists_cons_of_ne_nil h
  have hprefix : strip t <+: stripLeft t := by
    have hsuffix := (List.dropWhile_suffix (l := (stripLeft t).reverse) isBlank)
    rw [strip, stripRight]
    simpa using List.reverse_prefix.mpr hsuffix
  obtain ⟨v, hv⟩ := hprefix
  refine ⟨c, u, hstrip, head_dropWhile_isBlank (t := t) (u := u ++ v) ?_⟩
  rw [← stripLeft, ← hv, hstrip, List.cons_append]

theorem strip_strip (t : Text) : strip (strip t) = strip t := by
  by_cases h : strip t = []
  · rw [h]
    rfl
  · exact (tight_strip h).strip

theorem isBlank_of_head?_strip {t : Text} {c : Char} (h : c ∈ (strip t).head?) :
    isBlank c = false := by
  have hne : strip t ≠ [] := List.ne_nil_of_mem (List.mem_of_mem_head? h)
  obtain ⟨d, u, hstrip, hd⟩ := (tight_strip hne).first
  rw [hstrip] at h
  exact Option.some.inj h ▸ hd

theorem isBlank_of_getLast?_strip {t : Text} {c : Char} (h : c ∈ (strip t).getLast?) :
    isBlank c = false := by
  have hne : strip t ≠ [] := List.ne_nil_of_mem (List.mem_of_getLast? h)
  obtain ⟨u, d, hstrip, hd⟩ := (tight_strip hne).last
  rw [hstrip, List.getLast?_concat] at h
  exact Option.some.inj h ▸ hd

/-- Nothing is stripped off a text that begins and ends in other characters, or is empty. -/
theorem strip_of_ends {t : Text} (hfirst : ∀ c ∈ t.head?, isBlank c = false)
    (hlast : ∀ c ∈ t.getLast?, isBlank c = false) : strip t = t := by
  by_cases hne : t = []
  · rw [hne]
    rfl
  · have htight : t.Tight := by
      constructor
      · obtain ⟨c, u, rfl⟩ := List.exists_cons_of_ne_nil hne
        exact ⟨c, u, rfl, hfirst c rfl⟩
      · refine ⟨t.dropLast, t.getLast hne, (List.dropLast_concat_getLast hne).symm, ?_⟩
        exact hlast _ (List.getLast?_eq_some_getLast hne)
    exact htight.strip

/-- A text that is not empty and has nothing to strip is tight. -/
theorem tight_of_strip {t : Text} (hne : t ≠ []) (h : strip t = t) : t.Tight := by
  rw [← h] at hne
  rw [← h]
  exact tight_strip hne

theorem mem_of_mem_stripLeft {c : Char} {t : Text} (h : c ∈ stripLeft t) : c ∈ t :=
  (List.dropWhile_sublist _).subset h

theorem mem_of_mem_strip {c : Char} {t : Text} (h : c ∈ strip t) : c ∈ t := by
  rw [strip, stripRight, List.mem_reverse] at h
  have h' := (List.dropWhile_sublist _).subset h
  exact mem_of_mem_stripLeft (List.mem_reverse.mp h')

/-! ## Beginnings and ends -/

theorem after?_append (start t : Text) : after? start (start ++ t) = some t :=
  after?_eq_some_iff.mpr rfl

theorem after?_eq_none_iff {start t : Text} : after? start t = none ↔ ¬ start <+: t := by
  rw [Option.eq_none_iff_forall_ne_some]
  constructor
  · rintro h ⟨rest, hrest⟩
    exact h rest (after?_eq_some_iff.mpr hrest.symm)
  · exact fun h rest hrest => h ⟨rest, (after?_eq_some_iff.mp hrest).symm⟩

theorem startsWith_iff {start t : Text} : startsWith start t = true ↔ start <+: t := by
  rw [startsWith, ← not_iff_not, ← after?_eq_none_iff, Bool.not_eq_true,
    Option.isSome_eq_false_iff, Option.isNone_iff_eq_none]

theorem after?_of_startsWith {start t : Text} (h : startsWith start t = false) :
    after? start t = none := by
  rwa [startsWith, Option.isSome_eq_false_iff, Option.isNone_iff_eq_none] at h

theorem startsWith_of_not_mem {c : Char} {t : Text} (h : c ∉ t) : startsWith [c] t = false := by
  rw [← Bool.not_eq_true, startsWith_iff]
  exact fun hstart => h (hstart.subset List.mem_cons_self)

theorem hasPart_iff {part t : Text} : hasPart part t = true ↔ part <:+: t := by
  induction t with
  | nil => rw [hasPart, List.isEmpty_iff, List.infix_nil]
  | cons c t ih => rw [hasPart, Bool.or_eq_true, startsWith_iff, ih, List.infix_cons_iff]

theorem hasPart_of_append {part s t : Text} (h : hasPart part (s ++ t) = false) :
    hasPart part t = false := by
  rw [← Bool.not_eq_true, hasPart_iff] at h ⊢
  exact fun ht => h (ht.trans (List.suffix_append s t).isInfix)

/-- An end is removed exactly when the text ends in it. -/
theorem before?_eq_some_iff {ending t rest : Text} :
    before? ending t = some rest ↔ t = rest ++ ending := by
  rw [before?, Option.map_eq_some_iff]
  constructor
  · rintro ⟨u, hu, rfl⟩
    have hreverse := congrArg List.reverse (after?_eq_some_iff.mp hu)
    rwa [List.reverse_reverse, List.reverse_append, List.reverse_reverse] at hreverse
  · rintro rfl
    refine ⟨rest.reverse, ?_, List.reverse_reverse rest⟩
    rw [List.reverse_append, after?_append]

theorem before?_eq_none_iff {ending t : Text} : before? ending t = none ↔ ¬ ending <:+ t := by
  rw [Option.eq_none_iff_forall_ne_some]
  constructor
  · rintro h ⟨rest, hrest⟩
    exact h rest (before?_eq_some_iff.mpr hrest.symm)
  · exact fun h rest hrest => h ⟨rest, (before?_eq_some_iff.mp hrest).symm⟩

theorem before?_append (t ending : Text) : before? ending (t ++ ending) = some t :=
  before?_eq_some_iff.mpr rfl

/-! ## Words -/

/-- A text that holds word characters only, and at least one. -/
def IsWord (t : Text) : Prop := t ≠ [] ∧ ∀ c ∈ t, isWord c = true

instance (t : Text) : Decidable t.IsWord :=
  decidable_of_iff (t ≠ [] ∧ t.all isWord = true) (by simp [IsWord])

theorem IsWord.tight {t : Text} (h : t.IsWord) : t.Tight := by
  obtain ⟨hne, hword⟩ := h
  have hblank : ∀ c ∈ t, isBlank c = false := fun c hc => isBlank_of_isWord (hword c hc)
  constructor
  · obtain ⟨c, u, rfl⟩ := List.exists_cons_of_ne_nil hne
    exact ⟨c, u, rfl, hblank c List.mem_cons_self⟩
  · refine ⟨t.dropLast, t.getLast hne, (List.dropLast_concat_getLast hne).symm, ?_⟩
    exact hblank _ (List.getLast_mem hne)

/-! ## Pieces and lines -/

/-- A text without the separator is one piece. -/
theorem pieces_of_not_mem {sep : Char} {t : Text} (h : sep ∉ t) : pieces sep t = [t] := by
  induction t with
  | nil => rfl
  | cons c t ih =>
      rw [List.mem_cons, not_or] at h
      have hne : c ≠ sep := fun heq => h.1 heq.symm
      rw [pieces, if_neg hne, ih h.2, consHead]

theorem pieces_append {sep : Char} {t : Text} (h : sep ∉ t) (u : Text) :
    pieces sep (t ++ sep :: u) = t :: pieces sep u := by
  induction t with
  | nil => rw [List.nil_append, pieces, if_pos rfl]
  | cons c t ih =>
      rw [List.mem_cons, not_or] at h
      have hne : c ≠ sep := fun heq => h.1 heq.symm
      rw [List.cons_append, pieces, if_neg hne, ih h.2, consHead]

/-- Texts without the separator are found again when they have been joined by it. -/
theorem pieces_join {sep : Char} {ts : List Text} (hne : ts ≠ []) (h : ∀ t ∈ ts, sep ∉ t) :
    pieces sep (join [sep] ts) = ts := by
  induction ts with
  | nil => exact absurd rfl hne
  | cons t more ih =>
      have ht : sep ∉ t := h t List.mem_cons_self
      cases more with
      | nil => exact pieces_of_not_mem ht
      | cons u more =>
          have hmore := ih (List.cons_ne_nil u more) fun v hv => h v (List.mem_cons_of_mem _ hv)
          show pieces sep (t ++ [sep] ++ join [sep] (u :: more)) = t :: u :: more
          rw [List.append_assoc, List.singleton_append, pieces_append ht, hmore]

/-- Joined texts begin like the first of them. -/
theorem exists_join_cons (sep t : Text) (more : List Text) :
    ∃ rest, join sep (t :: more) = t ++ rest := by
  cases more with
  | nil => exact ⟨[], (List.append_nil t).symm⟩
  | cons u more => exact ⟨sep ++ join sep (u :: more), List.append_assoc _ _ _⟩

/-- The last of joined texts comes behind the others. -/
theorem join_concat (sep : Text) {ts : List Text} (hne : ts ≠ []) (t : Text) :
    join sep (ts ++ [t]) = join sep ts ++ sep ++ t := by
  induction ts with
  | nil => exact absurd rfl hne
  | cons u more ih =>
      cases more with
      | nil => rfl
      | cons v more =>
          have hmore := ih (List.cons_ne_nil v more)
          show u ++ sep ++ join sep (v :: more ++ [t]) =
            u ++ sep ++ join sep (v :: more) ++ sep ++ t
          rw [hmore]
          simp only [List.append_assoc]

/-- The characters of joined texts are those of the texts and of what joins them. -/
theorem mem_join {c : Char} {sep : Text} {ts : List Text} (h : c ∈ join sep ts) :
    c ∈ sep ∨ ∃ t ∈ ts, c ∈ t := by
  induction ts with
  | nil => exact absurd h List.not_mem_nil
  | cons t more ih =>
      cases more with
      | nil => exact Or.inr ⟨t, List.mem_cons_self, h⟩
      | cons u more =>
          rcases List.mem_append.mp h with h | h
          · rcases List.mem_append.mp h with h | h
            · exact Or.inr ⟨t, List.mem_cons_self, h⟩
            · exact Or.inl h
          · refine (ih h).imp_right ?_
            exact fun ⟨v, hv, hc⟩ => ⟨v, List.mem_cons_of_mem _ hv, hc⟩

theorem not_mem_join {c : Char} {sep : Text} {ts : List Text} (hsep : c ∉ sep)
    (h : ∀ t ∈ ts, c ∉ t) : c ∉ join sep ts := by
  intro hmem
  rcases mem_join hmem with hc | ⟨t, ht, hc⟩
  · exact hsep hc
  · exact h t ht hc

theorem mem_consHead {c d : Char} {ts : List Text} {t : Text} (ht : t ∈ consHead d ts)
    (hc : c ∈ t) : c = d ∨ ∃ u ∈ ts, c ∈ u := by
  cases ts with
  | nil =>
      rw [List.mem_singleton.mp ht, List.mem_singleton] at hc
      exact Or.inl hc
  | cons u more =>
      rcases List.mem_cons.mp ht with rfl | ht
      · refine (List.mem_cons.mp hc).imp_right ?_
        exact fun h => ⟨u, List.mem_cons_self, h⟩
      · exact Or.inr ⟨t, List.mem_cons_of_mem _ ht, hc⟩

theorem flatten_consHead (c : Char) (ts : List Text) :
    (consHead c ts).flatten = c :: ts.flatten := by
  cases ts with
  | nil => rfl
  | cons t ts => rfl

/-- The characters of a line are those of the text, without line ends. -/
theorem mem_lines {t line : Text} (hline : line ∈ lines t) {c : Char} (hc : c ∈ line) :
    c ∈ t ∧ c ≠ '\n' ∧ c ≠ '\r' := by
  fun_induction lines t generalizing line with
  | case1 => simp_all
  | case2 t ih =>
      rcases List.mem_cons.mp hline with rfl | hline
      · exact absurd hc List.not_mem_nil
      · obtain ⟨hmem, hends⟩ := ih hline hc
        exact ⟨List.mem_cons_of_mem _ hmem, hends⟩
  | case3 t _ ih =>
      rcases List.mem_cons.mp hline with rfl | hline
      · exact absurd hc List.not_mem_nil
      · obtain ⟨hmem, hends⟩ := ih hline hc
        exact ⟨List.mem_cons_of_mem _ (List.mem_cons_of_mem _ hmem), hends⟩
  | case4 t _ _ ih =>
      rcases List.mem_cons.mp hline with rfl | hline
      · exact absurd hc List.not_mem_nil
      · obtain ⟨hmem, hends⟩ := ih hline hc
        exact ⟨List.mem_cons_of_mem _ hmem, hends⟩
  | case5 d t hfeed hreturn ih =>
      rcases mem_consHead hline hc with rfl | ⟨u, hu, hc⟩
      · exact ⟨List.mem_cons_self, hfeed, hreturn⟩
      · obtain ⟨hmem, hends⟩ := ih hu hc
        exact ⟨List.mem_cons_of_mem _ hmem, hends⟩

end Flowchart.Text
