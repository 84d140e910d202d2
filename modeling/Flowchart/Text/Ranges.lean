/-!
# Sets of code points as sorted ranges

A set of characters is written as a list of ranges of code points, each range with both of
its ends, in rising order. `covers` looks a code point up and stops at the first range that
begins after it; `covers_iff` says that on a sorted list this is plain membership.
-/

set_option autoImplicit false

namespace Flowchart.Text

abbrev Ranges := List (Nat × Nat)

/-- Looks `n` up in ranges that rise; a range that begins after `n` ends the search. -/
def covers : Ranges → Nat → Bool
  | [], _ => false
  | (low, high) :: more, n =>
      if n < low then false else if n ≤ high then true else covers more n

/-- Each range begins at or after `start` and ends before the next begins. -/
def Rising : Nat → Ranges → Prop
  | _, [] => True
  | start, (low, high) :: more => start ≤ low ∧ low ≤ high ∧ Rising (high + 1) more

/-- Whether the ranges rise is decided by walking them. -/
instance decidableRising : (start : Nat) → (ranges : Ranges) → Decidable (Rising start ranges)
  | _, [] => isTrue trivial
  | start, (low, high) :: more =>
      have := decidableRising (high + 1) more
      inferInstanceAs (Decidable (start ≤ low ∧ low ≤ high ∧ Rising (high + 1) more))

/-- Every range of rising ranges begins at or after the point they rise from. -/
theorem Rising.le_of_mem {start : Nat} {ranges : Ranges} (h : Rising start ranges)
    {r : Nat × Nat} (hr : r ∈ ranges) : start ≤ r.1 := by
  induction ranges generalizing start with
  | nil => cases hr
  | cons first more ih =>
      obtain ⟨low, high⟩ := first
      obtain ⟨h1, h2, h3⟩ := h
      rcases List.mem_cons.mp hr with rfl | hr
      · exact h1
      · have := ih h3 hr
        omega

/-- On rising ranges the search finds exactly the code points that lie in one of them. -/
theorem covers_iff {start : Nat} {ranges : Ranges} (h : Rising start ranges) (n : Nat) :
    covers ranges n = true ↔ ∃ r ∈ ranges, r.1 ≤ n ∧ n ≤ r.2 := by
  induction ranges generalizing start with
  | nil => simp [covers]
  | cons first more ih =>
      obtain ⟨low, high⟩ := first
      obtain ⟨_, h2, h3⟩ := h
      have later : ∀ r ∈ more, high + 1 ≤ r.1 := fun r hr => h3.le_of_mem hr
      simp only [covers, List.mem_cons, exists_eq_or_imp]
      split
      · rename_i hlt
        constructor
        · intro hfalse
          cases hfalse
        · rintro (⟨h4, _⟩ | ⟨r, hr, h4, _⟩)
          · omega
          · have := later r hr
            omega
      · split
        · rename_i hge hle
          simp only [true_iff]
          exact Or.inl ⟨by omega, hle⟩
        · rename_i hge hgt
          rw [ih h3]
          constructor
          · exact Or.inr
          · rintro (⟨_, h4⟩ | h4)
            · omega
            · exact h4

end Flowchart.Text
