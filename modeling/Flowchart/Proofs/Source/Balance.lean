import Flowchart.Source.Parenthesis
import Mathlib.Data.List.Infix

/-!
# Balanced texts

A text is balanced when each group that it opens is closed in it, and nothing else is closed. Main
statement: `parenGroup` takes a text apart at its first balanced group, and there is one such group
at most (`parenGroup_firstGroup`).

The reader counts what is open, and `Text.Closes` says the same of a text as a whole: that it closes
what is open before it and no more. Balance is the case where nothing is open before.
-/

set_option autoImplicit false

namespace Flowchart

open Text

/-! ## Balance -/

/-- No beginning of the text closes more groups than it opens, and the text closes all it opens. -/
def Text.Balanced (t : Text) : Prop :=
  (∀ s, s <+: t → s.count ')' ≤ s.count '(') ∧ t.count ')' = t.count '('

instance (t : Text) : Decidable t.Balanced :=
  decidable_of_iff ((∀ s ∈ t.inits, s.count ')' ≤ s.count '(') ∧ t.count ')' = t.count '(')
    (by simp only [Text.Balanced, List.mem_inits])

/-- A text without parentheses is balanced. -/
theorem Text.balanced_of_not_mem {t : Text} (hopen : '(' ∉ t) (hclose : ')' ∉ t) : t.Balanced := by
  constructor
  · intro s hs
    rw [List.count_eq_zero_of_not_mem fun h => hclose (hs.subset h)]
    exact Nat.zero_le _
  · rw [List.count_eq_zero_of_not_mem hclose, List.count_eq_zero_of_not_mem hopen]

/-- What comes closes `depth` groups that are open where the text begins, and all that the text
opens: no beginning of it closes more than is open there. -/
def Text.Closes (depth : Nat) (t : Text) : Prop :=
  (∀ s, s <+: t → s.count ')' ≤ s.count '(' + depth) ∧ t.count ')' = t.count '(' + depth

/-- The empty beginning of a text closes nothing, so only the others count. -/
theorem Text.closes_cons_iff {depth : Nat} {c : Char} {t : Text} :
    Text.Closes depth (c :: t) ↔
      (∀ s, s <+: t → (c :: s).count ')' ≤ (c :: s).count '(' + depth) ∧
        (c :: t).count ')' = (c :: t).count '(' + depth := by
  constructor
  · rintro ⟨hbegins, htotal⟩
    exact ⟨fun s hs => hbegins (c :: s) ((List.prefix_cons_inj c).mpr hs), htotal⟩
  · rintro ⟨hbegins, htotal⟩
    refine ⟨?_, htotal⟩
    intro s hs
    rcases List.prefix_cons_iff.mp hs with rfl | ⟨u, rfl, hu⟩
    · exact Nat.zero_le _
    · exact hbegins u hu

theorem Text.closes_nil_iff {depth : Nat} : Text.Closes depth [] ↔ depth = 0 := by
  simp [Text.Closes, eq_comm]

theorem Text.not_closes_zero {t : Text} : ¬ Text.Closes 0 (')' :: t) := by
  rintro ⟨hbegins, -⟩
  have hfirst := hbegins [')'] ((List.prefix_cons_inj ')').mpr List.nil_prefix)
  exact absurd hfirst (by decide)

theorem Text.closes_close_iff {depth : Nat} {t : Text} :
    Text.Closes (depth + 1) (')' :: t) ↔ Text.Closes depth t := by
  rw [Text.closes_cons_iff]
  simp only [List.count_cons_self, ne_eq, Char.reduceEq, not_false_eq_true, List.count_cons_of_ne]
  refine and_congr (forall₂_congr fun s _ => ?_) ?_
  · omega
  · omega

theorem Text.closes_open_iff {depth : Nat} {t : Text} :
    Text.Closes depth ('(' :: t) ↔ Text.Closes (depth + 1) t := by
  rw [Text.closes_cons_iff]
  simp only [List.count_cons_self, ne_eq, Char.reduceEq, not_false_eq_true, List.count_cons_of_ne]
  refine and_congr (forall₂_congr fun s _ => ?_) ?_
  · omega
  · omega

theorem Text.closes_other_iff {depth : Nat} {c : Char} {t : Text} (hopen : c ≠ '(')
    (hclose : c ≠ ')') : Text.Closes depth (c :: t) ↔ Text.Closes depth t := by
  rw [Text.closes_cons_iff]
  simp only [List.count_cons_of_ne hopen, List.count_cons_of_ne hclose]
  rfl

/-! ## Groups -/

namespace Source

/-- A group ends at a parenthesis that closes it, and its inside is empty then. -/
theorem ends_eq_some_iff {t inside rest : Text} :
    some ([], t) = some (inside, rest) ↔
      ')' :: t = inside ++ ')' :: rest ∧ Text.Closes 0 inside := by
  constructor
  · intro h
    obtain ⟨rfl, rfl⟩ := Prod.mk.inj (Option.some.inj h)
    exact ⟨rfl, Text.closes_nil_iff.mpr rfl⟩
  · rintro ⟨htext, hinside⟩
    cases inside with
    | nil => rw [(List.cons.inj htext).2]
    | cons d more =>
        obtain ⟨rfl, -⟩ := List.cons.inj htext
        exact absurd hinside Text.not_closes_zero

/-- A group goes on behind a character that does not close it: what is read there is put behind the
character, `depth'` groups being open after it. -/
theorem goesOn_eq_some_iff {c : Char} {t inside rest : Text} {depth depth' : Nat}
    {parts : Option (Text × Text)} (hends : c = ')' → depth ≠ 0)
    (hcloses : ∀ u, Text.Closes depth (c :: u) ↔ Text.Closes depth' u)
    (hparts : ∀ {more}, parts = some (more, rest) ↔
      t = more ++ ')' :: rest ∧ Text.Closes depth' more) :
    parts.map (fun (inside, rest) => (c :: inside, rest)) = some (inside, rest) ↔
      c :: t = inside ++ ')' :: rest ∧ Text.Closes depth inside := by
  constructor
  · intro h
    obtain ⟨⟨more, rest'⟩, hmore, heq⟩ := Option.map_eq_some_iff.mp h
    obtain ⟨rfl, rfl⟩ := Prod.mk.inj heq
    obtain ⟨rfl, hinside⟩ := hparts.mp hmore
    exact ⟨rfl, (hcloses more).mpr hinside⟩
  · rintro ⟨htext, hinside⟩
    cases inside with
    | nil =>
        obtain ⟨hc, -⟩ := List.cons.inj htext
        exact absurd (Text.closes_nil_iff.mp hinside) (hends hc)
    | cons d more =>
        obtain ⟨rfl, hmore⟩ := List.cons.inj htext
        rw [hparts.mpr ⟨hmore, (hcloses more).mp hinside⟩]
        rfl

/-- A group ends at the first parenthesis that closes one more than is opened inside it, `depth`
groups being open where it begins. -/
theorem closeGroup_eq_some_iff {t inside rest : Text} {depth : Nat} :
    closeGroup depth t = some (inside, rest) ↔
      t = inside ++ ')' :: rest ∧ Text.Closes depth inside := by
  induction t generalizing depth inside with
  | nil => simp [closeGroup]
  | cons c t ih =>
      -- The reader changes the depth as the character changes what is still to be closed.
      by_cases hclose : c = ')'
      · subst hclose
        cases depth with
        | zero => exact ends_eq_some_iff
        | succ depth =>
            exact goesOn_eq_some_iff (fun _ => Nat.succ_ne_zero depth)
              (fun u => Text.closes_close_iff) ih
      · have hends : c = ')' → depth ≠ 0 := fun h => absurd h hclose
        by_cases hopen : c = '('
        · subst hopen
          exact goesOn_eq_some_iff hends (fun u => Text.closes_open_iff) ih
        · have hread : closeGroup depth (c :: t) =
              (closeGroup depth t).map fun (inside, rest) => (c :: inside, rest) := by
            simp only [closeGroup, hclose, hopen, if_false]
          rw [hread]
          exact goesOn_eq_some_iff hends (fun u => Text.closes_other_iff hopen hclose) ih

/-- What stands before, inside and behind the parentheses of the first group of a text. -/
structure FirstGroup (t before inside rest : Text) : Prop where
  text : t = before ++ '(' :: (inside ++ ')' :: rest)
  before : '(' ∉ before
  inside : inside.Balanced

theorem firstGroup_iff {t before inside rest : Text} :
    FirstGroup t before inside rest ↔
      ∃ behind, cutAt '(' t = some (before, behind) ∧
        closeGroup 0 behind = some (inside, rest) := by
  constructor
  · rintro ⟨htext, hbefore, hinside⟩
    exact ⟨inside ++ ')' :: rest, cutAt_eq_some_iff.mpr ⟨htext, hbefore⟩,
      closeGroup_eq_some_iff.mpr ⟨rfl, hinside⟩⟩
  · rintro ⟨behind, hcut, hclose⟩
    obtain ⟨htext, hbefore⟩ := cutAt_eq_some_iff.mp hcut
    obtain ⟨rfl, hinside⟩ := closeGroup_eq_some_iff.mp hclose
    exact ⟨htext, hbefore, hinside⟩

/-- A text has one first group at most. -/
theorem FirstGroup.unique {t before inside rest before' inside' rest' : Text}
    (h : FirstGroup t before inside rest) (h' : FirstGroup t before' inside' rest') :
    before' = before ∧ inside' = inside ∧ rest' = rest := by
  obtain ⟨behind, hcut, hclose⟩ := firstGroup_iff.mp h
  obtain ⟨behind', hcut', hclose'⟩ := firstGroup_iff.mp h'
  obtain ⟨rfl, rfl⟩ := Prod.mk.inj (Option.some.inj (hcut'.symm.trans hcut))
  obtain ⟨rfl, rfl⟩ := Prod.mk.inj (Option.some.inj (hclose'.symm.trans hclose))
  exact ⟨rfl, rfl, rfl⟩

theorem FirstGroup.parenGroup_eq {t before inside rest : Text}
    (h : FirstGroup t before inside rest) : parenGroup t = (strip inside, strip rest) := by
  obtain ⟨behind, hcut, hclose⟩ := firstGroup_iff.mp h
  unfold parenGroup
  simp only [hcut, hclose]

/-- A text without an opening parenthesis is all rest. -/
theorem parenGroup_of_not_mem {t : Text} (h : '(' ∉ t) : parenGroup t = ([], strip t) := by
  unfold parenGroup
  rw [cutAt_of_not_mem h]

/-- A balanced text between parentheses is given back, with what follows it. -/
theorem parenGroup_balanced {before inside : Text} (hbefore : '(' ∉ before)
    (hinside : inside.Balanced) (rest : Text) :
    parenGroup (before ++ '(' :: (inside ++ ')' :: rest)) = (strip inside, strip rest) :=
  FirstGroup.parenGroup_eq ⟨rfl, hbefore, hinside⟩

/-- A group that is never closed leaves nothing. -/
theorem parenGroup_unclosed {t : Text} (hopen : '(' ∈ t)
    (h : ∀ before inside rest, ¬ FirstGroup t before inside rest) : parenGroup t = ([], []) := by
  obtain ⟨before, behind, ht, hbefore⟩ := List.eq_append_cons_of_mem hopen
  have hcut : cutAt '(' t = some (before, behind) := cutAt_eq_some_iff.mpr ⟨ht, hbefore⟩
  have hclose : closeGroup 0 behind = none := by
    cases hclose : closeGroup 0 behind with
    | none => rfl
    | some parts => exact absurd (firstGroup_iff.mpr ⟨behind, hcut, hclose⟩) (h before _ _)
  unfold parenGroup
  simp only [hcut, hclose]

/-- The first group of every text: there is none to look for, or it is found and is the only one, or
it is never closed. -/
theorem parenGroup_firstGroup (t : Text) :
    ('(' ∉ t → parenGroup t = ([], strip t)) ∧
      (∀ before inside rest, FirstGroup t before inside rest →
        parenGroup t = (strip inside, strip rest) ∧
          ∀ before' inside' rest', FirstGroup t before' inside' rest' →
            before' = before ∧ inside' = inside ∧ rest' = rest) ∧
      ('(' ∈ t → (∀ before inside rest, ¬ FirstGroup t before inside rest) →
        parenGroup t = ([], [])) := by
  refine ⟨parenGroup_of_not_mem, ?_, parenGroup_unclosed⟩
  intro before inside rest h
  exact ⟨h.parenGroup_eq, fun _ _ _ h' => h.unique h'⟩

/-- A text with a group inside its first one, one that is never closed, and one without any. -/
theorem parenGroup_firstGroup_nested :
    FirstGroup "while ( f(x) ) g(y)".toList "while ".toList " f(x) ".toList " g(y)".toList ∧
      parenGroup "while ( f(x) ) g(y)".toList = ("f(x)".toList, "g(y)".toList) ∧
      ('(' ∈ "if (f(x); g(y)".toList ∧
        ∀ before inside rest, ¬ FirstGroup "if (f(x); g(y)".toList before inside rest) ∧
      parenGroup "if (f(x); g(y)".toList = ([], []) ∧
      '(' ∉ " a) ".toList ∧ parenGroup " a) ".toList = ([], "a)".toList) := by
  have hfound : FirstGroup "while ( f(x) ) g(y)".toList "while ".toList " f(x) ".toList
      " g(y)".toList := ⟨by decide, by decide, by decide⟩
  have hnone : ∀ before inside rest, ¬ FirstGroup "if (f(x); g(y)".toList before inside rest := by
    intro before inside rest h
    obtain ⟨behind, hcut, hclose⟩ := firstGroup_iff.mp h
    have hcut' : cutAt '(' "if (f(x); g(y)".toList = some ("if ".toList, "f(x); g(y)".toList) := by
      decide
    obtain ⟨rfl, rfl⟩ := Prod.mk.inj (Option.some.inj (hcut'.symm.trans hcut))
    exact absurd hclose (by simp [closeGroup])
  exact ⟨hfound, ((parenGroup_firstGroup _).2.1 _ _ _ hfound).1, ⟨by decide, hnone⟩,
    (parenGroup_firstGroup _).2.2 (by decide) hnone, by decide,
    (parenGroup_firstGroup _).1 (by decide)⟩

end Source

end Flowchart
