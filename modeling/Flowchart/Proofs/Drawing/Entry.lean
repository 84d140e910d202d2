import Flowchart.Proofs.Drawing.Part

/-!
# The way into a part

A part is entered by one link: from the cursor to the first node that the part adds
(`Part.exists_links_eq`). Every other link of the part begins at a node of its own. A part without
nodes has no links, and leaves the cursor where it is with its label. In the order of its steps, a
part begins with its first node and the link that enters it (`Part.exists_steps_eq`).
-/

set_option autoImplicit false

namespace Flowchart.Part

variable {given : Nat} {cursor : Cursor Vertex}

/-- The link from a cursor to the first of some nodes; none when there is no node. -/
def entry (cursor : Cursor Vertex) (marks : List Mark) : List Link :=
  marks.head?.toList.map fun mark => ⟨cursor.node, cursor.label, .made mark⟩

@[simp] theorem entry_nil (cursor : Cursor Vertex) : entry cursor [] = [] := rfl

@[simp] theorem entry_cons (cursor : Cursor Vertex) (mark : Mark) (marks : List Mark) :
    entry cursor (mark :: marks) = [⟨cursor.node, cursor.label, .made mark⟩] := rfl

theorem marks_eq_nil_iff {p : Part} : p.marks given cursor = [] ↔ p.size = 0 := by
  rw [← List.length_eq_zero_iff, p.length_marks]

theorem links_of_marks_eq_nil {p : Part} (h : p.marks given cursor = []) :
    p.links given cursor = [] := links_of_size_eq_zero (marks_eq_nil_iff.mp h)

/-- Where a part without nodes leaves the cursor, it has been before. -/
theorem exit_of_marks_eq_nil {p : Part} (h : p.marks given cursor = []) :
    p.exit given cursor = cursor := by
  rcases p.exit_eq_or given cursor with ⟨hexit, _⟩ | ⟨⟨mark, hmark, _⟩, _⟩
  · exact hexit
  · rw [h] at hmark
    exact absurd hmark List.not_mem_nil

/-- A part with nodes leaves the cursor at one of them, and no label waits there. -/
theorem exit_of_marks_ne_nil {p : Part} (h : p.marks given cursor ≠ []) :
    ∃ mark ∈ p.marks given cursor, p.exit given cursor = ⟨.made mark, []⟩ := by
  rcases p.exit_eq_or given cursor with ⟨_, hsize⟩ | ⟨hexit, _⟩
  · exact absurd (marks_eq_nil_iff.mpr hsize) h
  · exact hexit

/-- The link from the cursor to the first node comes first, and the others begin at nodes of the
part. -/
theorem exists_links_eq (p : Part) (given : Nat) (cursor : Cursor Vertex) :
    ∃ more, p.links given cursor = entry cursor (p.marks given cursor) ++ more ∧
      ∀ link ∈ more, p.Adds given cursor link.source := by
  induction p generalizing given cursor with
  | nothing => exact ⟨[], rfl, by simp⟩
  | single role label => exact ⟨[], rfl, by simp⟩
  | andThen first second ihFirst ihSecond =>
      rw [links_andThen, marks_andThen]
      cases hmarks : first.marks given cursor with
      -- The first part adds nothing, so the second one is drawn from the cursor.
      | nil =>
          obtain ⟨more, hlinks, hsources⟩ :=
            ihSecond (given + first.size) (first.exit given cursor)
          refine ⟨more, ?_, fun link hlink => adds_second (hsources link hlink)⟩
          rw [links_of_marks_eq_nil hmarks, hlinks, exit_of_marks_eq_nil hmarks]
          rfl
      | cons mark marks =>
          obtain ⟨more, hlinks, hsources⟩ := ihFirst given cursor
          obtain ⟨last, hlast, hexit⟩ :=
            exit_of_marks_ne_nil (hmarks ▸ List.cons_ne_nil mark marks)
          refine ⟨more ++ second.links (given + first.size) (first.exit given cursor), ?_, ?_⟩
          · rw [hlinks, hmarks, List.append_assoc]
            rfl
          · intro link hlink
            rcases List.mem_append.mp hlink with hlink | hlink
            · exact adds_first second (hsources link hlink)
            · rcases (ends_of_mem_links hlink).1 with hsource | hsource
              · rw [hsource, hexit]
                exact adds_first second ⟨last, hlast, rfl⟩
              · exact adds_second hsource
  | fork label yes no _ _ =>
      refine ⟨yes.links (given + 1) (yesAt given label) ++
        (no.links (given + 1 + yes.size) (noAt given label) ++
          [yesLink given label yes no, noLink given label yes no]), ?_, fun link hlink => ?_⟩
      · rw [links_fork, marks_fork]
        rfl
      · simp only [List.mem_append, List.mem_cons, List.not_mem_nil, or_false] at hlink
        rcases hlink with hlink | hlink | rfl | rfl
        · exact adds_yes no (ends_of_mem_links hlink).1
        · exact adds_no (ends_of_mem_links hlink).1
        · exact adds_yes no (yes.touches_exit (given + 1) (yesAt given label))
        · exact adds_no (no.touches_exit (given + 1 + yes.size) (noAt given label))
  | repeated label body _ =>
      refine ⟨body.links (given + 1) (bodyAt given label) ++ [backLink given label body], ?_,
        fun link hlink => ?_⟩
      · rw [links_repeated, marks_repeated]
        rfl
      · simp only [List.mem_append, List.mem_cons, List.not_mem_nil, or_false] at hlink
        rcases hlink with hlink | rfl
        · exact adds_body (ends_of_mem_links hlink).1
        · exact adds_body (body.touches_exit (given + 1) (bodyAt given label))

/-! ## The first steps -/

theorem steps_of_marks_eq_nil {p : Part} (h : p.marks given cursor = []) :
    p.steps given cursor = [] := by
  have hlinks := links_of_marks_eq_nil h
  rw [marks] at h
  rw [links] at hlinks
  cases hsteps : p.steps given cursor with
  | nil => rfl
  | cons step steps =>
      rw [hsteps] at h hlinks
      cases step with
      | node mark => exact absurd h (List.cons_ne_nil _ _)
      | edge link => exact absurd hlinks (List.cons_ne_nil _ _)

/-- The first node of a part comes first, and the link that enters it next. -/
theorem exists_steps_eq {p : Part} {mark : Mark} {marks : List Mark}
    (h : p.marks given cursor = mark :: marks) :
    ∃ more, p.steps given cursor = entrySteps mark cursor ++ more := by
  induction p generalizing given cursor marks with
  | nothing => cases h
  | single role label =>
      obtain ⟨rfl, -⟩ := List.cons.inj h
      exact ⟨[], rfl⟩
  | andThen first second ihFirst ihSecond =>
      rw [marks_andThen] at h
      rw [steps]
      cases hmarks : first.marks given cursor with
      | nil =>
          rw [hmarks, List.nil_append, exit_of_marks_eq_nil hmarks] at h
          obtain ⟨more, hmore⟩ := ihSecond h
          refine ⟨more, ?_⟩
          rw [steps_of_marks_eq_nil hmarks, exit_of_marks_eq_nil hmarks, hmore]
          rfl
      | cons other others =>
          rw [hmarks, List.cons_append] at h
          obtain ⟨rfl, -⟩ := List.cons.inj h
          obtain ⟨more, hmore⟩ := ihFirst hmarks
          exact ⟨_, by rw [hmore, List.append_assoc]⟩
  | fork label yes no _ _ =>
      rw [marks_fork] at h
      obtain ⟨rfl, -⟩ := List.cons.inj h
      exact ⟨_, rfl⟩
  | repeated label body _ =>
      rw [marks_repeated] at h
      obtain ⟨rfl, -⟩ := List.cons.inj h
      exact ⟨_, rfl⟩

theorem number_of_marks_eq_cons {p : Part} {mark : Mark} {marks : List Mark}
    (h : p.marks given cursor = mark :: marks) : mark.number = given + 1 := by
  have hnumbers := p.marks_numbers given cursor
  rw [← p.length_marks given cursor, h, List.map_cons, List.length_cons,
    List.range'_succ] at hnumbers
  exact (List.cons.inj hnumbers).1

end Flowchart.Part
