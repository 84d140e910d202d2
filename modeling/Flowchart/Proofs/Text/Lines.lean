import Flowchart.Proofs.Text.Cuts
import Flowchart.Text.Lines
import Mathlib.Data.List.Chain
import Mathlib.Data.List.TakeWhile

/-!
# The lines of a text

Lines are found again whichever line ends join them (`lines_broken`), and a text without carriage
returns has its line ends written as line feeds already (`withLineFeeds_of_not_mem`). Line ends are
blanks, so a text is blank when its lines are (`isAllBlank_iff_lines`).
-/

set_option autoImplicit false

namespace Flowchart

/-! ## Texts put together from lines -/

inductive LineEnd where
  | lineFeed
  | carriageReturn
  | both
deriving DecidableEq, Repr

def LineEnd.text : LineEnd → Text
  | lineFeed => ['\n']
  | carriageReturn => ['\r']
  | both => ['\r', '\n']

/-- A line with more lines below, each of them behind a line end. A text has one line at least. -/
def Text.broken : (first : Text) → (more : List (LineEnd × Text)) → Text
  | first, [] => first
  | first, (lineEnd, line) :: more => first ++ (lineEnd.text ++ broken line more)

/-- An empty line behind a carriage return is not followed by a line feed: without a character
between them the two are one line end. -/
def LineEnd.Apart (before behind : LineEnd × Text) : Prop :=
  before = (.carriageReturn, []) → behind.1 ≠ .lineFeed

instance : DecidableRel LineEnd.Apart := fun before behind =>
  inferInstanceAs (Decidable (before = (.carriageReturn, []) → behind.1 ≠ .lineFeed))

/-- A text without line ends. -/
def Text.Unbroken (t : Text) : Prop := '\n' ∉ t ∧ '\r' ∉ t

instance (t : Text) : Decidable t.Unbroken :=
  inferInstanceAs (Decidable ('\n' ∉ t ∧ '\r' ∉ t))

namespace Text

theorem unbroken_append {t u : Text} : (t ++ u).Unbroken ↔ t.Unbroken ∧ u.Unbroken := by
  simp only [Unbroken, List.mem_append, not_or]
  exact and_and_and_comm

/-! ## Their lines -/

/-- Characters put in front of a list of lines go to the first of them. -/
theorem foldr_consHead (t line : Text) (more : List Text) :
    t.foldr consHead (line :: more) = (t ++ line) :: more := by
  induction t with
  | nil => rfl
  | cons c t ih =>
      rw [List.foldr_cons, ih]
      rfl

theorem lines_feed (t : Text) : lines ('\n' :: t) = [] :: lines t := by
  rw [lines.eq_def]
  rfl

theorem lines_of_ne {c : Char} (hfeed : c ≠ '\n') (hreturn : c ≠ '\r') (t : Text) :
    lines (c :: t) = consHead c (lines t) := by
  rw [lines.eq_def]
  simp only [if_neg hfeed, if_neg hreturn]

/-- A carriage return is a line end of its own where no line feed is behind it. -/
theorem lines_return {t : Text} (h : t.head? ≠ some '\n') : lines ('\r' :: t) = [] :: lines t := by
  rw [lines]
  · rfl
  · rintro u rfl
    exact h rfl

theorem lines_append {t : Text} (h : t.Unbroken) (u : Text) :
    lines (t ++ u) = t.foldr consHead (lines u) := by
  obtain ⟨hfeed, hreturn⟩ := h
  induction t with
  | nil => rfl
  | cons c t ih =>
      rw [List.mem_cons, not_or] at hfeed hreturn
      rw [List.cons_append, lines_of_ne (Ne.symm hfeed.1) (Ne.symm hreturn.1),
        ih hfeed.2 hreturn.2, List.foldr_cons]

theorem lines_of_unbroken {t : Text} (h : t.Unbroken) : lines t = [t] := by
  have hlines := lines_append h []
  rwa [List.append_nil, lines, foldr_consHead, List.append_nil] at hlines

/-- A line end parts what stands before it from what stands behind it, unless a line feed behind a
carriage return is part of it. -/
theorem lines_append_lineEnd {t : Text} (ht : t.Unbroken) {e : LineEnd} {u : Text}
    (h : e = .carriageReturn → u.head? ≠ some '\n') :
    lines (t ++ (e.text ++ u)) = t :: lines u := by
  have hend : lines (e.text ++ u) = [] :: lines u := by
    cases e with
    | lineFeed => exact lines_feed u
    | carriageReturn => exact lines_return (h rfl)
    | both => rfl
  rw [lines_append ht, hend, foldr_consHead, List.append_nil]

/-- A text that is put together from lines begins with a line feed only where its first line is
empty and a line feed ends it. -/
theorem head?_broken {first : Text} (hfirst : first.Unbroken) {more : List (LineEnd × Text)}
    (hmore : first = [] → ∀ next ∈ more.head?, next.1 ≠ .lineFeed) :
    (broken first more).head? ≠ some '\n' := by
  cases first with
  | cons c first =>
      have hc : c ≠ '\n' := fun heq => hfirst.1 (heq ▸ List.mem_cons_self)
      cases more with
      | nil => exact fun hhead => hc (Option.some.inj hhead)
      | cons next more => exact fun hhead => hc (Option.some.inj hhead)
  | nil =>
      cases more with
      | nil => exact nofun
      | cons next more =>
          obtain ⟨e, line⟩ := next
          have he : e ≠ .lineFeed := hmore rfl (e, line) rfl
          cases e with
          | lineFeed => exact absurd rfl he
          | carriageReturn => exact fun hhead => absurd (Option.some.inj hhead) (by decide)
          | both => exact fun hhead => absurd (Option.some.inj hhead) (by decide)

/-- The lines of a text that is put together from lines are those lines. -/
theorem lines_broken {first : Text} {more : List (LineEnd × Text)}
    (hlines : ∀ line ∈ first :: more.map Prod.snd, line.Unbroken)
    (hends : more.IsChain LineEnd.Apart) :
    lines (broken first more) = first :: more.map Prod.snd := by
  induction more generalizing first with
  | nil => exact lines_of_unbroken (hlines first List.mem_cons_self)
  | cons next more ih =>
      obtain ⟨e, line⟩ := next
      have hmore : ∀ t ∈ line :: more.map Prod.snd, t.Unbroken :=
        fun t ht => hlines t (List.mem_cons_of_mem _ ht)
      have hapart : e = .carriageReturn → (broken line more).head? ≠ some '\n' := by
        rintro rfl
        refine head?_broken (hmore line List.mem_cons_self) ?_
        rintro rfl next hnext
        exact (List.isChain_cons.mp hends).1 next hnext rfl
      calc lines (broken first ((e, line) :: more))
          = first :: lines (broken line more) :=
            lines_append_lineEnd (hlines first List.mem_cons_self) hapart
        _ = first :: line :: more.map Prod.snd := by
            rw [ih hmore (List.isChain_cons.mp hends).2]

/-! ## Line feeds -/

/-- Lines are found again when they have been joined by line feeds. -/
theorem lines_join {ts : List Text} (hne : ts ≠ []) (h : ∀ t ∈ ts, t.Unbroken) :
    lines (join ['\n'] ts) = ts := by
  induction ts with
  | nil => exact absurd rfl hne
  | cons t more ih =>
      have ht : t.Unbroken := h t List.mem_cons_self
      cases more with
      | nil => exact lines_of_unbroken ht
      | cons u more =>
          have hmore := ih (List.cons_ne_nil u more) fun v hv => h v (List.mem_cons_of_mem _ hv)
          show lines (t ++ ['\n'] ++ join ['\n'] (u :: more)) = t :: u :: more
          rw [List.append_assoc]
          exact (lines_append_lineEnd ht (e := .lineFeed) nofun).trans (by rw [hmore])

theorem lines_eq_cons (t : Text) : ∃ line more, lines t = line :: more := by
  fun_induction lines t with
  | case1 => exact ⟨[], [], rfl⟩
  | case2 t => exact ⟨[], lines t, rfl⟩
  | case3 t => exact ⟨[], _, rfl⟩
  | case4 t => exact ⟨[], _, rfl⟩
  | case5 c t _ _ ih =>
      obtain ⟨line, more, hlines⟩ := ih
      exact ⟨c :: line, more, by rw [hlines, consHead]⟩

theorem withLineFeeds_of_not_mem {t : Text} (h : '\r' ∉ t) : withLineFeeds t = t := by
  induction t with
  | nil => rfl
  | cons c t ih =>
      rw [List.mem_cons, not_or] at h
      obtain ⟨line, more, hlines⟩ := lines_eq_cons t
      have hmore : join ['\n'] (line :: more) = t := hlines ▸ ih h.2
      rw [withLineFeeds, joinLines]
      by_cases hfeed : c = '\n'
      · rw [hfeed, lines_feed, hlines, ← hmore]
        rfl
      · rw [lines_of_ne hfeed (Ne.symm h.1), hlines, ← hmore]
        cases more with
        | nil => rfl
        | cons next more => rfl

/-! ## Blank texts -/

theorem isAllBlank_cons (c : Char) (t : Text) :
    isAllBlank (c :: t) = true ↔ isBlank c = true ∧ isAllBlank t = true := by
  rw [isAllBlank, List.all_cons, Bool.and_eq_true, isAllBlank]

theorem forall_consHead_isAllBlank (c : Char) (ts : List Text) :
    (∀ t ∈ consHead c ts, isAllBlank t = true) ↔
      isBlank c = true ∧ ∀ t ∈ ts, isAllBlank t = true := by
  cases ts with
  | nil => simp [consHead, isAllBlank]
  | cons t ts =>
      rw [consHead, List.forall_mem_cons, List.forall_mem_cons, isAllBlank_cons, and_assoc]

/-- Line ends are blanks, so a text is blank when its lines are. -/
theorem isAllBlank_iff_lines (t : Text) :
    isAllBlank t = true ↔ ∀ line ∈ lines t, isAllBlank line = true := by
  have hfeed : isBlank '\n' = true := by decide
  have hreturn : isBlank '\r' = true := by decide
  have hempty : isAllBlank [] = true := rfl
  fun_induction lines t with
  | case1 => simp only [List.forall_mem_singleton]
  | case2 t ih => simp only [isAllBlank_cons, List.forall_mem_cons, ih, hfeed, hempty, true_and]
  | case3 t _ ih =>
      simp only [isAllBlank_cons, List.forall_mem_cons, ih, hfeed, hreturn, hempty, true_and]
  | case4 t _ _ ih =>
      simp only [isAllBlank_cons, List.forall_mem_cons, ih, hreturn, hempty, true_and]
  | case5 c t _ _ ih => simp only [isAllBlank_cons, forall_consHead_isAllBlank, ih]

/-! ## Characters other than blanks -/

/-- The characters of a text that are no blanks. -/
def solid (t : Text) : Text := t.filter fun c => !isBlank c

theorem solid_append (t u : Text) : solid (t ++ u) = solid t ++ solid u := List.filter_append t u

theorem solid_cons_of_isBlank {c : Char} (h : isBlank c = true) (t : Text) :
    solid (c :: t) = solid t :=
  List.filter_cons_of_neg (by simp [h])

theorem solid_of_isAllBlank {t : Text} (h : isAllBlank t = true) : solid t = [] := by
  rw [solid, List.filter_eq_nil_iff]
  exact fun c hc => by simp [List.all_eq_true.mp h c hc]

theorem solid_stripLeft (t : Text) : solid (stripLeft t) = solid t := by
  induction t with
  | nil => rfl
  | cons c t ih =>
      by_cases hc : isBlank c = true
      · have hdrop : stripLeft (c :: t) = stripLeft t := List.dropWhile_cons_of_pos hc
        rw [hdrop, ih, solid_cons_of_isBlank hc]
      · rw [stripLeft_cons (by simpa using hc)]

theorem solid_strip (t : Text) : solid (strip t) = solid t := by
  have hright : ∀ u, solid (stripRight u) = solid u := by
    intro u
    have hleft := congrArg List.reverse (solid_stripLeft u.reverse)
    rwa [solid, solid, List.filter_reverse, List.reverse_reverse, ← List.filter_reverse] at hleft
  rw [strip, hright, solid_stripLeft]

/-- Blanks between texts add nothing to them. -/
theorem solid_join {sep : Text} (hsep : isAllBlank sep = true) (ts : List Text) :
    solid (join sep ts) = solid ts.flatten := by
  induction ts with
  | nil => rfl
  | cons t more ih =>
      cases more with
      | nil => rw [join, List.flatten_cons, List.flatten_nil, List.append_nil]
      | cons u more =>
          rw [join, solid_append, solid_append, solid_of_isAllBlank hsep, List.append_nil, ih]
          exact (solid_append t _).symm

/-- Between the lines of a text there are line ends only, which are blanks. -/
theorem solid_flatten_lines (t : Text) : solid (lines t).flatten = solid t := by
  have hfeed : isBlank '\n' = true := by decide
  have hreturn : isBlank '\r' = true := by decide
  fun_induction lines t with
  | case1 => rfl
  | case2 t ih => rw [List.flatten_cons, List.nil_append, ih, solid_cons_of_isBlank hfeed]
  | case3 t _ ih =>
      rw [List.flatten_cons, List.nil_append, ih, solid_cons_of_isBlank hreturn,
        solid_cons_of_isBlank hfeed]
  | case4 t _ _ ih =>
      rw [List.flatten_cons, List.nil_append, ih, solid_cons_of_isBlank hreturn]
  | case5 c t _ _ ih =>
      rw [flatten_consHead, ← List.singleton_append, solid_append, ih, ← solid_append,
        List.singleton_append]

end Text

end Flowchart
