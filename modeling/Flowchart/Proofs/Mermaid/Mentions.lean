import Flowchart.Proofs.Mermaid.Line
import Flowchart.Proofs.Mermaid.ReadBack
import Mathlib.Data.List.Infix

/-!
# Mentions before declarations

Which identifiers a diagram mentions too early is a matter of places: an edge mentions an identifier
at the place of its source or of its target, and the mention is early when no line above declares
the identifier (`EarlyAt`). Main statement: the checker reports the identifiers with an early
mention, each once, in the order of their first early mentions, and no line further down changes
what is reported already (`undeclared_places`).

The checker only collects names. `placedMentions` runs along with it and keeps the place of each
mention: its names are those of the checker (`map_placedMentions`), its places rise
(`placedMentions_rising`), and it has an entry exactly for each early mention
(`mem_placedMentions`).
-/

set_option autoImplicit false

open scoped List

namespace Flowchart.Mermaid

open Text

/-! ## Places -/

/-- A place where an identifier can be mentioned: a line, and one end of the edge on it. -/
structure Place where
  line : Nat
  atTarget : Bool
deriving DecidableEq, Repr

/-- Lines follow each other downwards, and the source of an edge comes before its target. -/
def Place.Before (p q : Place) : Prop :=
  p.line < q.line ∨ p.line = q.line ∧ p.atTarget = false ∧ q.atTarget = true

/-- The edge on a line has the identifier at this end. -/
def MentionedAt (lines : List Text) (place : Place) (id : Text) : Prop :=
  ∃ line source target, lines[place.line]? = some line ∧ DrawsEdge line source target ∧
    id = if place.atTarget then target else source

/-- One of the first `n` lines declares the identifier. -/
def DeclaredAbove (lines : List Text) (n : Nat) (id : Text) : Prop :=
  ∃ k < n, ∃ line, lines[k]? = some line ∧ Declares line id

/-- An edge mentions the identifier, and no line above it declares the identifier. -/
def EarlyAt (lines : List Text) (place : Place) (id : Text) : Prop :=
  MentionedAt lines place id ∧ ¬ DeclaredAbove lines place.line id

/-! ## Elements with an early mention -/

/-- The `n`th of the elements is an edge with the identifier at an end, and none before it is a
declaration of the identifier. -/
def EarlyAmong (elements : List Element) (n : Nat) (atTarget : Bool) (id : Text) : Prop :=
  (∃ source target, elements[n]? = some (.edge source target) ∧
    id = if atTarget then target else source) ∧
  ∀ k < n, elements[k]? ≠ some (.declaration id)

theorem earlyAmong_zero {element : Element} {more : List Element} {atTarget : Bool} {id : Text} :
    EarlyAmong (element :: more) 0 atTarget id ↔
      ∃ source target, element = .edge source target ∧
        id = if atTarget then target else source := by
  simp [EarlyAmong]

theorem earlyAmong_succ {element : Element} {more : List Element} {n : Nat} {atTarget : Bool}
    {id : Text} :
    EarlyAmong (element :: more) (n + 1) atTarget id ↔
      element ≠ .declaration id ∧ EarlyAmong more n atTarget id := by
  unfold EarlyAmong
  simp only [List.getElem?_cons_succ]
  constructor
  · rintro ⟨hedge, hfree⟩
    refine ⟨fun heq => hfree 0 (Nat.succ_pos n) (congrArg some heq), hedge, fun k hk => ?_⟩
    exact hfree (k + 1) (Nat.succ_lt_succ hk)
  · rintro ⟨hne, hedge, hfree⟩
    refine ⟨hedge, fun k hk => ?_⟩
    cases k with
    | zero => exact fun heq => hne (Option.some.inj heq)
    | succ k => exact hfree k (Nat.lt_of_succ_lt_succ hk)

/-- Lines and their elements have the same early mentions. -/
theorem earlyAmong_map_element {lines : List Text} {n : Nat} {atTarget : Bool} {id : Text} :
    EarlyAmong (lines.map element) n atTarget id ↔ EarlyAt lines ⟨n, atTarget⟩ id := by
  have hline : ∀ (k : Nat) (e : Element), (lines.map element)[k]? = some e ↔
      ∃ line, lines[k]? = some line ∧ element line = e := by
    intro k e
    rw [List.getElem?_map, Option.map_eq_some_iff]
  unfold EarlyAmong EarlyAt MentionedAt DeclaredAbove
  simp only [ne_eq, hline, element_eq_edge_iff, element_eq_declaration_iff]
  refine and_congr ?_ ?_
  · constructor
    · rintro ⟨source, target, ⟨line, hmem, hedge⟩, hid⟩
      exact ⟨line, source, target, hmem, hedge, hid⟩
    · rintro ⟨line, source, target, hmem, hedge, hid⟩
      exact ⟨source, target, ⟨line, hmem, hedge⟩, hid⟩
  · simp only [not_exists, not_and]

/-! ## The run of the checker with places -/

/-- What `earlyMentions` collects, each with its place; the first element is on line `n`. -/
def placedMentions (declared : List Text) (n : Nat) : List Element → List (Place × Text)
  | [] => []
  | .edge source target :: more =>
      [(⟨n, false⟩, source), (⟨n, true⟩, target)].filter
          (fun entry => !declared.contains entry.2) ++
        placedMentions declared (n + 1) more
  | .declaration id :: more => placedMentions (id :: declared) (n + 1) more
  | .other :: more => placedMentions declared (n + 1) more

theorem map_placedMentions (declared : List Text) (n : Nat) (elements : List Element) :
    (placedMentions declared n elements).map Prod.snd = earlyMentions declared elements := by
  induction elements generalizing declared n with
  | nil => rfl
  | cons element more ih =>
      cases element with
      | edge source target =>
          rw [placedMentions, earlyMentions, List.map_append, ih]
          refine congrArg (· ++ _) ?_
          exact (List.filter_map (p := fun id => !declared.contains id)).symm
      | declaration id => exact ih (id :: declared) (n + 1)
      | other => exact ih declared (n + 1)

theorem le_line_of_mem_placedMentions {declared : List Text} {n : Nat} {elements : List Element}
    {entry : Place × Text} (h : entry ∈ placedMentions declared n elements) :
    n ≤ entry.1.line := by
  induction elements generalizing declared n with
  | nil => exact absurd h List.not_mem_nil
  | cons element more ih =>
      cases element with
      | edge source target =>
          rcases List.mem_append.mp h with h | h
          · have hline : entry = (⟨n, false⟩, source) ∨ entry = (⟨n, true⟩, target) := by
              simpa using (List.mem_filter.mp h).1
            rcases hline with rfl | rfl
            · exact Nat.le_refl n
            · exact Nat.le_refl n
          · exact Nat.le_of_succ_le (ih h)
      | declaration id => exact Nat.le_of_succ_le (ih h)
      | other => exact Nat.le_of_succ_le (ih h)

/-- The places rise. -/
theorem placedMentions_rising (declared : List Text) (n : Nat) (elements : List Element) :
    (placedMentions declared n elements).Pairwise fun entry other => entry.1.Before other.1 := by
  induction elements generalizing declared n with
  | nil => exact List.Pairwise.nil
  | cons element more ih =>
      cases element with
      | edge source target =>
          refine List.pairwise_append.mpr ⟨?_, ih declared (n + 1), ?_⟩
          · refine List.Pairwise.filter _ (List.pairwise_pair.mpr ?_)
            exact Or.inr ⟨rfl, rfl, rfl⟩
          · intro entry hentry other hother
            have hline : entry.1.line = n := by
              have hmem := (List.mem_filter.mp hentry).1
              simp only [List.mem_cons, List.not_mem_nil, or_false] at hmem
              rcases hmem with rfl | rfl
              · rfl
              · rfl
            exact Or.inl (hline ▸ le_line_of_mem_placedMentions hother)
      | declaration id => exact ih (id :: declared) (n + 1)
      | other => exact ih declared (n + 1)

/-- An early mention is on the first line, or further down and not declared on the first. -/
theorem exists_earlyAmong_cons {element : Element} {more : List Element} {n line : Nat}
    {atTarget : Bool} {id : Text} :
    (∃ k, line = n + k ∧ EarlyAmong (element :: more) k atTarget id) ↔
      (line = n ∧ ∃ source target, element = .edge source target ∧
          id = if atTarget then target else source) ∨
        element ≠ .declaration id ∧ ∃ k, line = n + 1 + k ∧ EarlyAmong more k atTarget id := by
  constructor
  · rintro ⟨k, hline, hearly⟩
    cases k with
    | zero => exact Or.inl ⟨hline, earlyAmong_zero.mp hearly⟩
    | succ k =>
        obtain ⟨hne, hearly⟩ := earlyAmong_succ.mp hearly
        exact Or.inr ⟨hne, k, by omega, hearly⟩
  · rintro (⟨hline, hedge⟩ | ⟨hne, k, hline, hearly⟩)
    · exact ⟨0, hline, earlyAmong_zero.mpr hedge⟩
    · exact ⟨k + 1, by omega, earlyAmong_succ.mpr ⟨hne, hearly⟩⟩

/-- There is an entry for each early mention of an identifier that is not declared beforehand.

The induction is on the elements, for any first line and any declarations before it. -/
theorem mem_placedMentions {declared : List Text} {n : Nat} {elements : List Element}
    {place : Place} {id : Text} :
    (place, id) ∈ placedMentions declared n elements ↔
      id ∉ declared ∧ ∃ k, place.line = n + k ∧ EarlyAmong elements k place.atTarget id := by
  induction elements generalizing declared n with
  | nil => simp [placedMentions, EarlyAmong]
  | cons element more ih =>
      rw [exists_earlyAmong_cons]
      cases element with
      | edge source target =>
          have hhere : (place, id) ∈ [(⟨n, false⟩, source), (⟨n, true⟩, target)].filter
              (fun entry : Place × Text => !declared.contains entry.2) ↔
                id ∉ declared ∧ place.line = n ∧
                  id = if place.atTarget then target else source := by
            obtain ⟨line, atTarget⟩ := place
            cases atTarget with
            | false => simp [and_comm]
            | true => simp [and_comm]
          rw [placedMentions, List.mem_append, hhere, ih, ← and_or_left]
          simp
      | declaration other =>
          rw [placedMentions, ih, List.mem_cons, not_or]
          have hne : Element.declaration other ≠ .declaration id ↔ ¬ id = other := by
            rw [ne_eq, Element.declaration.injEq, eq_comm]
          simp [hne, and_assoc, and_left_comm]
      | other =>
          rw [placedMentions, ih]
          simp

/-! ## What the checker reports -/

/-- In entries whose places rise, a name that comes first before another has a place before all
places of the other. -/
theorem exists_place_before {entries : List (Place × Text)} {a b : Text}
    (hrising : entries.Pairwise fun entry other => entry.1.Before other.1)
    (ha : a ∈ entries.map Prod.snd)
    (hlt : (entries.map Prod.snd).idxOf a < (entries.map Prod.snd).idxOf b) :
    ∃ place, (place, a) ∈ entries ∧ ∀ other, (other, b) ∈ entries → place.Before other := by
  induction entries with
  | nil => exact absurd ha List.not_mem_nil
  | cons entry entries ih =>
      obtain ⟨place, name⟩ := entry
      obtain ⟨hbefore, hrising⟩ := List.pairwise_cons.mp hrising
      rw [List.map_cons] at ha hlt
      have hb : b ≠ name := by
        rintro rfl
        rw [List.idxOf_cons_self] at hlt
        exact Nat.not_lt_zero _ hlt
      by_cases hname : a = name
      · refine ⟨place, hname ▸ List.mem_cons_self, fun other hother => ?_⟩
        rcases List.mem_cons.mp hother with heq | hother
        · exact absurd (Prod.mk.inj heq).2 hb
        · exact hbefore (other, b) hother
      · rw [List.idxOf_cons_ne _ (Ne.symm hname), List.idxOf_cons_ne _ hb.symm] at hlt
        have ha' := (List.mem_cons.mp ha).resolve_left hname
        obtain ⟨place', hmem, hothers⟩ := ih hrising ha' (Nat.lt_of_succ_lt_succ hlt)
        refine ⟨place', List.mem_cons_of_mem _ hmem, fun other hother => ?_⟩
        rcases List.mem_cons.mp hother with heq | hother
        · exact absurd (Prod.mk.inj heq).2 hb
        · exact hothers other hother

/-- Elements further down add mentions behind those that there are. -/
theorem earlyMentions_mono {elements others : List Element} (h : elements <+: others)
    (declared : List Text) : earlyMentions declared elements <+: earlyMentions declared others := by
  obtain ⟨more, rfl⟩ := h
  induction elements generalizing declared with
  | nil => exact List.nil_prefix
  | cons element elements ih =>
      cases element with
      | edge source target => exact (List.prefix_append_right_inj _).mpr (ih declared)
      | declaration id => exact ih (id :: declared)
      | other => exact ih declared

theorem eraseDups_mono {ids others : List Text} (h : ids <+: others) :
    ids.eraseDups <+: others.eraseDups := by
  obtain ⟨more, rfl⟩ := h
  rw [List.eraseDups_append]
  exact List.prefix_append _ _

/-- The checker reports the identifiers with an early mention: each once, in the order of their
first early mentions, and whatever comes further down. -/
theorem undeclared_places (t : Text) :
    (∀ id, id ∈ undeclared t ↔ ∃ place, EarlyAt (contentLines t).tail place id) ∧
      (undeclared t).Nodup ∧
      ((undeclared t).Pairwise fun a b => ∃ place, EarlyAt (contentLines t).tail place a ∧
        ∀ other, EarlyAt (contentLines t).tail other b → place.Before other) ∧
      ∀ u, contentLines t <+: contentLines u → undeclared t <+: undeclared u := by
  have hentries : ∀ place id, (place, id) ∈ placedMentions [] 0 (elements t) ↔
      EarlyAt (contentLines t).tail place id := by
    intro place id
    rw [mem_placedMentions, elements]
    simp only [earlyAmong_map_element, List.not_mem_nil, not_false_eq_true, true_and, Nat.zero_add,
      exists_eq_left']
  have hnames : undeclared t = ((placedMentions [] 0 (elements t)).map Prod.snd).eraseDups := by
    rw [map_placedMentions, undeclared]
  have horder := inOrderOfFirst_eraseDups ((placedMentions [] 0 (elements t)).map Prod.snd)
    fun _ => true
  rw [List.filter_true, ← hnames] at horder
  have hmem : ∀ id, id ∈ undeclared t ↔ id ∈ (placedMentions [] 0 (elements t)).map Prod.snd := by
    intro id
    rw [hnames, List.mem_eraseDups]
  refine ⟨fun id => ?_, horder.nodup, ?_, fun u hprefix => ?_⟩
  · rw [hmem, List.mem_map]
    constructor
    · rintro ⟨⟨place, id⟩, hentry, rfl⟩
      exact ⟨place, (hentries place id).mp hentry⟩
    · rintro ⟨place, hearly⟩
      exact ⟨(place, id), (hentries place id).mpr hearly, rfl⟩
  · refine List.Pairwise.imp_of_mem ?_ horder
    intro a b ha _ hlt
    obtain ⟨place, hentry, hothers⟩ :=
      exists_place_before (placedMentions_rising [] 0 (elements t)) ((hmem a).mp ha) hlt
    refine ⟨place, (hentries place a).mp hentry, fun other hother => ?_⟩
    exact hothers other ((hentries other b).mpr hother)
  · have hlines : (contentLines t).tail <+: (contentLines u).tail := by
      rw [← List.drop_one, ← List.drop_one]
      exact List.IsPrefix.drop hprefix 1
    exact eraseDups_mono (earlyMentions_mono (hlines.map element) [])

/-- Two edges whose ends are declared too late or not at all, and a comment. -/
def hastyDiagram : Text :=
  "graph TD\n  a[\"x\"]\n  %% c[\"z\"]\n  b -->|y -->| a\n  b((\"y\"))\n  a --> c".toList

theorem undeclared_places_hasty :
    (∀ id, id ∈ undeclared hastyDiagram ↔
        ∃ place, EarlyAt (contentLines hastyDiagram).tail place id) ∧
      contentLines hastyDiagram <+: contentLines (hastyDiagram ++ "\nc[\"z\"]".toList) ∧
      ["b".toList, "c".toList] <+: undeclared (hastyDiagram ++ "\nc[\"z\"]".toList) := by
  obtain ⟨hmem, -, -, hlater⟩ := undeclared_places hastyDiagram
  have hprefix : contentLines hastyDiagram <+:
      contentLines (hastyDiagram ++ "\nc[\"z\"]".toList) := by
    decide +kernel
  have hundeclared : undeclared hastyDiagram = ["b".toList, "c".toList] := by
    decide +kernel
  exact ⟨hmem, hprefix, hundeclared ▸ hlater _ hprefix⟩

end Flowchart.Mermaid
