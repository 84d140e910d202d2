import Flowchart.Proofs.Drawing.Part
import Flowchart.Proofs.Graph.Walk

/-!
# Paths along links

A path is a walk through the links of a drawing, kept as the word that is read on it. The words
read between two vertices are a language, `between`.

The lemmas here cut paths up. Which links a path can use is known from where they begin and end: a
path that enters a closed set of vertices stays there (`Path.restrict`), so a path through links
that were added in stages passes the stages in order. From that come the equations for a part
behind another (`between_append`), behind a single link (`between_cons`), for two answers that meet
again (`between_parallel`), and for a way back (`between_back`).
-/

set_option autoImplicit false

namespace Flowchart

open Computability

/-- The node of a vertex. Of an outer one nothing is known but its identifier. -/
def Vertex.node : Vertex → Node
  | outer id => { id := .text id, label := .text [] }
  | made mark => mark.node

/-- What is read on a link: its label, and the node behind it. -/
def Link.word (link : Link) : List Event := spoken link.label ++ [.node link.target.node]

theorem Link.word_ne_nil (link : Link) : link.word ≠ [] := by
  simp [word]

/-- A path along links, from one vertex to another, with the word that is read on it. -/
inductive Path (links : List Link) : Vertex → List Event → Vertex → Prop where
  | stop (v : Vertex) : Path links v [] v
  | go {link : Link} {word : List Event} {last : Vertex} (hlink : link ∈ links)
      (hrest : Path links link.target word last) : Path links link.source (link.word ++ word) last

/-- The words that are read on the paths from one vertex to another. -/
def between (links : List Link) (first last : Vertex) : Language Event :=
  {word | Path links first word last}

variable {links more : List Link} {u v w : Vertex} {word word' : List Event}

/-! ## Paths -/

namespace Path

theorem append (h : Path links u word v) (h' : Path links v word' w) :
    Path links u (word ++ word') w := by
  induction h with
  | stop v => exact h'
  | go hlink _ ih =>
      rw [List.append_assoc]
      exact go hlink (ih h')

theorem mono (hsub : ∀ link ∈ links, link ∈ more) (h : Path links u word v) :
    Path more u word v := by
  induction h with
  | stop v => exact stop v
  | go hlink _ ih => exact go (hsub _ hlink) ih

theorem single {link : Link} (h : link ∈ links) : Path links link.source link.word link.target := by
  have hpath := go h (stop link.target)
  rwa [List.append_nil] at hpath

/-- A path from a vertex that no link leaves ends there. -/
theorem eq_of_no_source (hu : ∀ link ∈ links, link.source ≠ u) (h : Path links u word v) :
    v = u ∧ word = [] := by
  cases h with
  | stop => exact ⟨rfl, rfl⟩
  | go hlink _ => exact absurd rfl (hu _ hlink)

/-- A path from a set of vertices that no link leaves uses only links in that set. -/
theorem restrict (inside : Vertex → Prop)
    (hclosed : ∀ link ∈ links, inside link.source → link ∈ more ∧ inside link.target)
    (hu : inside u) (h : Path links u word v) : Path more u word v ∧ inside v := by
  induction h with
  | stop v => exact ⟨stop v, hu⟩
  | go hlink _ ih =>
      obtain ⟨hmore, htarget⟩ := hclosed _ hlink hu
      obtain ⟨hpath, hlast⟩ := ih htarget
      exact ⟨go hmore hpath, hlast⟩

/-- A path into a set of vertices that is entered at one vertex only passes that vertex. -/
theorem node_mem_of_enter {inside : Vertex → Prop}
    (hentry : ∀ link ∈ links, inside link.target → inside link.source ∨ link.target = w)
    (hu : ¬ inside u) (hv : inside v) (h : Path links u word v) : .node w.node ∈ word := by
  induction h with
  | stop v => exact absurd hv hu
  | @go link word last hlink _ ih =>
      by_cases htarget : inside link.target
      · rcases hentry link hlink htarget with hsource | rfl
        · exact absurd hsource hu
        · simp [Link.word]
      · exact List.mem_append_right _ (ih htarget hv)

end Path

theorem between_congr (h : ∀ link, link ∈ links ↔ link ∈ more) :
    between links u v = between more u v := by
  ext word
  exact ⟨Path.mono fun link => (h link).mp, Path.mono fun link => (h link).mpr⟩

/-- Without links there is only the path that stops where it begins. -/
theorem between_nil (v : Vertex) : between [] v v = 1 := by
  ext word
  constructor
  · intro h
    exact (Path.eq_of_no_source (by simp) h).2
  · rintro rfl
    exact Path.stop v

/-! ## One stage behind another -/

/-- Paths through links of which the later ones begin at `v` or behind the bound, and end behind
it, while the earlier ones stay before it. -/
theorem between_append {bound : Nat}
    (hlinks : ∀ link ∈ links, link.source.number ≤ bound ∧ link.target.number ≤ bound)
    (hmore : ∀ link ∈ more,
      (link.source = v ∨ bound < link.source.number) ∧ bound < link.target.number)
    (hu : u.number ≤ bound) (hw : bound < w.number) :
    between (links ++ more) u w = between links u v * between more v w := by
  have hclosed : ∀ link ∈ links ++ more, bound < link.source.number →
      link ∈ more ∧ bound < link.target.number := by
    intro link hlink hsource
    rcases List.mem_append.mp hlink with h | h
    · exact absurd (hlinks link h).1 (by omega)
    · exact ⟨h, (hmore link h).2⟩
  ext word
  rw [Language.mem_mul]
  constructor
  · intro h
    induction h with
    | stop => omega
    | @go link word last hlink hrest ih =>
        rcases List.mem_append.mp hlink with h | h
        · obtain ⟨first, hfirst, second, hsecond, rfl⟩ := ih (hlinks link h).2 hw
          exact ⟨link.word ++ first, Path.go h hfirst, second, hsecond,
            List.append_assoc _ _ _⟩
        · -- The first link of the later stage begins at `v`, and the path stays behind it.
          obtain ⟨hsource, htarget⟩ := hmore link h
          have hv : link.source = v := hsource.resolve_right (by omega)
          obtain ⟨hpath, _⟩ := hrest.restrict (bound < ·.number) hclosed htarget
          subst hv
          exact ⟨[], Path.stop _, link.word ++ word, Path.go h hpath, rfl⟩
  · rintro ⟨first, hfirst, second, hsecond, rfl⟩
    exact (hfirst.mono fun _ => List.mem_append_left _).append
      (hsecond.mono fun _ => List.mem_append_right _)

/-- Paths that begin with the only link out of a vertex. -/
theorem between_cons {link : Link} {bound : Nat} (hsource : link.source.number ≤ bound)
    (htarget : bound < link.target.number)
    (hmore : ∀ link ∈ more, bound < link.source.number ∧ bound < link.target.number)
    (hw : bound < w.number) :
    between (link :: more) link.source w = {link.word} * between more link.target w := by
  have hclosed : ∀ link' ∈ link :: more, bound < link'.source.number →
      link' ∈ more ∧ bound < link'.target.number := by
    intro link' hlink' hbound
    rcases List.mem_cons.mp hlink' with rfl | h
    · omega
    · exact ⟨h, (hmore link' h).2⟩
  ext word
  rw [Language.mem_mul]
  constructor
  · intro h
    -- The cases on the path need a variable for where it begins.
    obtain ⟨u, hu⟩ : ∃ u, link.source = u := ⟨_, rfl⟩
    rw [hu] at h hsource
    cases h with
    | stop => omega
    | @go link' word last hlink' hrest =>
        rcases List.mem_cons.mp hlink' with rfl | h
        · exact ⟨link'.word, rfl, word, (hrest.restrict (bound < ·.number) hclosed htarget).1, rfl⟩
        · exact absurd (hmore link' h).1 (by omega)
  · rintro ⟨first, rfl, second, hsecond, rfl⟩
    exact Path.go List.mem_cons_self (hsecond.mono fun _ => List.mem_cons_of_mem _)

/-! ## Two answers, and the way back -/

/-- A path that is inside of one of two stages stays there until the join: it takes no link of the
other stage, which begins at the fork or inside of that stage. -/
theorem mem_of_inside {fork join : Vertex} {inside other : Vertex → Prop}
    (hlinks : ∀ link ∈ links, inside link.target ∨ link.target = join)
    (hmore : ∀ link ∈ more, link.source = fork ∨ other link.source)
    (hdisjoint : ∀ v, inside v → ¬ other v) (hfork : ¬ inside fork) (hjoin : ¬ other join)
    (hne : fork ≠ join) {link : Link} (hlink : link ∈ links ∨ link ∈ more)
    (hsource : inside link.source ∨ link.source = join) :
    link ∈ links ∧ (inside link.target ∨ link.target = join) := by
  rcases hlink with h | h
  · exact ⟨h, hlinks link h⟩
  · exfalso
    rcases hmore link h with h1 | h1
    · rcases hsource with h2 | h2
      · exact hfork (h1 ▸ h2)
      · exact hne (h1.symm.trans h2)
    · rcases hsource with h2 | h2
      · exact hdisjoint _ h2 h1
      · exact hjoin (h2 ▸ h1)

/-- Paths from a fork to a join, through two stages that share no vertex. -/
theorem between_parallel {fork join : Vertex} {inYes inNo : Vertex → Prop}
    (hlinks : ∀ link ∈ links,
      (link.source = fork ∨ inYes link.source) ∧ (inYes link.target ∨ link.target = join))
    (hmore : ∀ link ∈ more,
      (link.source = fork ∨ inNo link.source) ∧ (inNo link.target ∨ link.target = join))
    (hdisjoint : ∀ v, inYes v → ¬ inNo v) (hfork : ¬ inYes fork ∧ ¬ inNo fork)
    (hjoin : ¬ inYes join ∧ ¬ inNo join) (hne : fork ≠ join) :
    between (links ++ more) fork join = between links fork join + between more fork join := by
  have hyes : ∀ link ∈ links ++ more, inYes link.source ∨ link.source = join →
      link ∈ links ∧ (inYes link.target ∨ link.target = join) := fun link hlink =>
    mem_of_inside (fun link h => (hlinks link h).2) (fun link h => (hmore link h).1) hdisjoint
      hfork.1 hjoin.2 hne (List.mem_append.mp hlink)
  have hno : ∀ link ∈ links ++ more, inNo link.source ∨ link.source = join →
      link ∈ more ∧ (inNo link.target ∨ link.target = join) := fun link hlink =>
    mem_of_inside (fun link h => (hmore link h).2) (fun link h => (hlinks link h).1)
      (fun v hv h => hdisjoint v h hv) hfork.2 hjoin.1 hne (List.mem_append.mp hlink).symm
  ext word
  rw [Language.mem_add]
  constructor
  · intro h
    obtain ⟨u, hu⟩ : ∃ u, fork = u := ⟨_, rfl⟩
    rw [hu] at h
    cases h with
    | stop => exact absurd hu hne
    | @go link word _ hlink hrest =>
        subst hu
        rcases List.mem_append.mp hlink with h | h
        · have hinside := hrest.restrict (fun v => inYes v ∨ v = join) hyes (hlinks link h).2
          exact Or.inl (Path.go h hinside.1)
        · have hinside := hrest.restrict (fun v => inNo v ∨ v = join) hno (hmore link h).2
          exact Or.inr (Path.go h hinside.1)
  · rintro (h | h)
    · exact Path.mono (fun _ => List.mem_append_left _) h
    · exact Path.mono (fun _ => List.mem_append_right _) h

/-- A path along links and a way back, up to the first time that it takes the way back. -/
theorem Path.split_back {back : Link} (hlinks : ∀ link ∈ links, link.target ≠ back.target)
    (h : Path (links ++ [back]) u word back.target) :
    (u = back.target ∧ word = []) ∨
      ∃ first second, word = first ++ back.word ++ second ∧ Path links u first back.source ∧
        Path (links ++ [back]) back.target second back.target := by
  obtain ⟨last, hlast⟩ : ∃ last, back.target = last := ⟨_, rfl⟩
  rw [hlast] at h
  induction h with
  | stop v => exact Or.inl ⟨hlast.symm, rfl⟩
  | @go link word last hlink hrest ih =>
      subst hlast
      rcases List.mem_append.mp hlink with h | h
      · rcases ih rfl with ⟨htarget, _⟩ | ⟨first, second, rfl, hfirst, hsecond⟩
        · exact absurd htarget (hlinks link h)
        · exact Or.inr ⟨link.word ++ first, second, by simp, Path.go h hfirst, hsecond⟩
      · obtain rfl := List.mem_singleton.mp h
        exact Or.inr ⟨[], word, rfl, Path.stop _, hrest⟩

/-- Paths from the end of a way back to itself go round any number of times. -/
theorem between_back {back : Link} (hlinks : ∀ link ∈ links, link.target ≠ back.target) :
    between (links ++ [back]) back.target back.target =
      (between links back.target back.source * {back.word})∗ := by
  ext word
  constructor
  · intro h
    -- What is left behind a round is shorter, since the way back is never silent.
    induction hn : word.length using Nat.strong_induction_on generalizing word with
    | _ n ih =>
        subst hn
        rcases Path.split_back hlinks h with ⟨_, rfl⟩ | ⟨first, second, rfl, hfirst, hsecond⟩
        · exact Language.nil_mem_kstar _
        · have hshorter : second.length < (first ++ back.word ++ second).length := by
            have := List.length_pos_iff.mpr back.word_ne_nil
            simp only [List.length_append]
            omega
          obtain ⟨rounds, hrounds, hmem⟩ := Language.mem_kstar.mp (ih _ hshorter second hsecond rfl)
          refine Language.mem_kstar.mpr ⟨(first ++ back.word) :: rounds, ?_, ?_⟩
          · rw [List.flatten_cons, ← hrounds]
          · intro round hround
            rcases List.mem_cons.mp hround with rfl | h
            · exact Language.append_mem_mul hfirst rfl
            · exact hmem round h
  · intro h
    obtain ⟨rounds, rfl, hmem⟩ := Language.mem_kstar.mp h
    clear h
    induction rounds with
    | nil => exact Path.stop _
    | cons round rounds ih =>
        obtain ⟨first, hfirst, second, hsecond, rfl⟩ :=
          Language.mem_mul.mp (hmem round List.mem_cons_self)
        obtain rfl : second = back.word := hsecond
        have hround : Path (links ++ [back]) back.target (first ++ back.word) back.target :=
          (Path.mono (fun _ => List.mem_append_left _) hfirst).append
            (Path.single (List.mem_append_right _ List.mem_cons_self))
        exact hround.append (ih fun round h => hmem round (List.mem_cons_of_mem _ h))

end Flowchart
