import Flowchart.Mermaid.Check
import Flowchart.Mermaid.Render
import Flowchart.Proofs.Text.Cuts

/-!
# Fences

The marks that set a diagram off in markdown are taken off again, whatever stands between them
(`stripFences_fence`), and a text that neither begins nor ends in them has none to lose
(`stripFences_of_unfenced`). Main statement: a text without fences of its own is read between fences
as it is read without them (`fence_transparent`).
-/

set_option autoImplicit false

open scoped List

namespace Flowchart.Mermaid

open Text

theorem fence_eq (t : Text) :
    fence t = "```mermaid".toList ++ (['\n'] ++ (t ++ ['\n'] ++ "```".toList)) := by
  have hbefore : "```mermaid\n".toList = "```mermaid".toList ++ ['\n'] := rfl
  have hbehind : "\n```".toList = ['\n'] ++ "```".toList := rfl
  calc fence t
      = "```mermaid".toList ++ ['\n'] ++ t ++ "\n```".toList :=
        congrArg (· ++ t ++ "\n```".toList) hbefore
    _ = "```mermaid".toList ++ ['\n'] ++ t ++ (['\n'] ++ "```".toList) :=
        congrArg ("```mermaid".toList ++ ['\n'] ++ t ++ ·) hbehind
    _ = "```mermaid".toList ++ (['\n'] ++ (t ++ ['\n'] ++ "```".toList)) := by
        simp only [List.append_assoc]

theorem tight_fence (t : Text) : Tight (fence t) := by
  have htick : isBlank '`' = false := by decide
  have hfirst : ∃ c v, "```mermaid\n".toList = c :: v ∧ isBlank c = false :=
    ⟨'`', "``mermaid\n".toList, rfl, htick⟩
  have hlast : ∃ v c, "\n```".toList = v ++ [c] ∧ isBlank c = false :=
    ⟨"\n``".toList, '`', rfl, htick⟩
  exact tight_append hfirst hlast t

/-- Only the blanks at the ends of a text are lost between fences. -/
theorem stripFences_fence (t : Text) : stripFences (fence t) = strip t := by
  have htick : isBlank '`' = false := by decide
  have hopen : after? "```mermaid".toList (fence t) =
      some (['\n'] ++ (t ++ ['\n'] ++ "```".toList)) := by
    rw [fence_eq]
    exact after?_append _ _
  have hfeed : isAllBlank ['\n'] = true := by decide
  have hclose : stripLeft (['\n'] ++ (t ++ ['\n'] ++ "```".toList)) =
      stripLeft (t ++ ['\n']) ++ "```".toList := by
    rw [stripLeft_append hfeed]
    exact stripLeft_append_cons htick _ _
  rw [stripFences, (tight_fence t).strip]
  simp only [hopen, hclose, before?_append]
  have happend : stripLeft (t ++ ['\n']) =
      if (stripLeft t).isEmpty then stripLeft ['\n'] else stripLeft t ++ ['\n'] :=
    List.dropWhile_append
  by_cases hempty : stripLeft t = []
  -- Between the marks there are blanks only: the line feed before the closing ones goes with them.
  · have hrest : stripLeft (t ++ ['\n']) = [] := by
      rw [happend, if_pos (List.isEmpty_iff.mpr hempty)]
      rfl
    have hstrip : strip t = [] := by
      rw [strip, hempty]
      rfl
    rw [hrest, hstrip]
    rfl
  · rw [happend, if_neg (mt List.isEmpty_iff.mp hempty), before?_append, Option.getD_some,
      strip_stripLeft]

/-- A text without fences is stripped of its blanks and of nothing else. -/
theorem stripFences_of_unfenced {t : Text} (hopen : ¬ "```mermaid".toList <+: strip t)
    (hclose : ¬ "```".toList <:+ strip t) : stripFences t = strip t := by
  rw [stripFences]
  simp only [after?_eq_none_iff.mpr hopen, before?_eq_none_iff.mpr hclose, strip_strip]

/-- A text that neither begins nor ends in a back quote has no fences. -/
theorem stripFences_of_tight {t : Text} (h : t.Tight) (hfirst : t.head? ≠ some '`')
    (hlast : t.getLast? ≠ some '`') : stripFences t = t := by
  have hopen : ¬ "```mermaid".toList <+: t := by
    rintro ⟨rest, rfl⟩
    exact hfirst rfl
  have hclose : ¬ "```".toList <:+ t := by
    rintro ⟨rest, rfl⟩
    refine hlast ?_
    rw [List.getLast?_append]
    rfl
  have hstrip := h.strip
  rw [← hstrip] at hopen hclose
  exact (stripFences_of_unfenced hopen hclose).trans hstrip

/-! ## Reading between fences -/

/-- What is read from a text depends on it only through what is left without fences. -/
theorem contentLines_congr {t u : Text} (h : stripFences t = stripFences u) :
    contentLines t = contentLines u := by
  rw [contentLines, contentLines, h]

theorem elements_congr {t u : Text} (h : stripFences t = stripFences u) :
    elements t = elements u := by
  rw [elements, elements, contentLines_congr h]

theorem undeclared_congr {t u : Text} (h : stripFences t = stripFences u) :
    undeclared t = undeclared u := by
  rw [undeclared, undeclared, elements_congr h]

theorem tally_congr {t u : Text} (h : stripFences t = stripFences u) : tally t = tally u := by
  rw [tally, tally, elements_congr h]

/-- A text that is not blank has the faults of what is left of it without fences. -/
theorem check_congr {t u : Text} (ht : isAllBlank t = false) (hu : isAllBlank u = false)
    (h : stripFences t = stripFences u) : check t = check u := by
  simp only [check, ht, hu, contentLines_congr h, undeclared_congr h]

/-- Fences give back what is between them up to blanks at its ends, also where that begins or ends
in fences itself, and they change nothing about how a text without fences is read. -/
theorem fence_transparent (t : Text) :
    stripFences (fence t) = strip t ∧
      (strip t ≠ [] → ¬ "```mermaid".toList <+: strip t → ¬ "```".toList <:+ strip t →
        check (fence t) = check t ∧ undeclared (fence t) = undeclared t ∧
          tally (fence t) = tally t) := by
  refine ⟨stripFences_fence t, fun hne hopen hclose => ?_⟩
  have hsame : stripFences (fence t) = stripFences t :=
    (stripFences_fence t).trans (stripFences_of_unfenced hopen hclose).symm
  have hfence : isAllBlank (fence t) = false := (tight_fence t).not_isAllBlank
  have ht : isAllBlank t = false := by
    rw [Bool.eq_false_iff]
    exact fun hblank => hne (strip_eq_nil_iff.mpr hblank)
  exact ⟨check_congr hfence ht hsame, undeclared_congr hsame, tally_congr hsame⟩

/-- A diagram with blanks around it and marks of fences inside. -/
def looseDiagram : Text := "\n graph LR\n ```mermaid\n b --> a\n ```\n a[\"``` x\"] \n\n".toList

theorem fence_transparent_loose :
    strip looseDiagram ≠ [] ∧ ¬ "```mermaid".toList <+: strip looseDiagram ∧
      ¬ "```".toList <:+ strip looseDiagram ∧
      check (fence looseDiagram) = check looseDiagram ∧
      undeclared (fence looseDiagram) = undeclared looseDiagram ∧
      tally (fence looseDiagram) = tally looseDiagram := by
  have hne : strip looseDiagram ≠ [] := by decide
  have hopen : ¬ "```mermaid".toList <+: strip looseDiagram := by decide
  have hclose : ¬ "```".toList <:+ strip looseDiagram := by decide
  exact ⟨hne, hopen, hclose, (fence_transparent looseDiagram).2 hne hopen hclose⟩

end Flowchart.Mermaid
