import Flowchart.Text.Blank
import Flowchart.Text.Digit
import Flowchart.Text.Raw
import Flowchart.Text.Word

/-!
# Blanks, digits and word characters

No character is both a blank and a word character, and the decimal digits are word characters. The
code points of characters leave out the halves of UTF-16 pairs, and the characters that halves are
shown as are neither blanks nor parts of words.
-/

set_option autoImplicit false

namespace Flowchart.Text

theorem rising_wordRanges : Rising 0 wordRanges := by
  decide +kernel

theorem rising_blankRanges : Rising 0 blankRanges := by
  decide +kernel

/-- No range of blanks meets a range of word characters. -/
theorem blankRanges_apart :
    ∀ r ∈ blankRanges, ∀ s ∈ wordRanges, r.2 < s.1 ∨ s.2 < r.1 := by
  decide +kernel

theorem isBlank_of_isWord {c : Char} (h : isWord c = true) : isBlank c = false := by
  rw [Bool.eq_false_iff]
  intro hblank
  obtain ⟨s, hs, hs1, hs2⟩ := (covers_iff rising_wordRanges c.toNat).mp h
  obtain ⟨r, hr, hr1, hr2⟩ := (covers_iff rising_blankRanges c.toNat).mp hblank
  rcases blankRanges_apart r hr s hs with h1 | h1
  · omega
  · omega

theorem isWord_of_isDigit {c : Char} (h : c.isDigit = true) : isWord c = true := by
  have hrange : (0x30, 0x39) ∈ wordRanges := List.mem_cons_self
  simp only [Char.isDigit, Bool.and_eq_true, decide_eq_true_eq] at h
  exact (covers_iff rising_wordRanges c.toNat).mpr ⟨_, hrange, h.1, h.2⟩

/-- The code points of characters leave out the halves of pairs, and two units reach all others. -/
theorem toNat_bounds (c : Char) :
    (c.toNat < 0xd800 ∨ 0xe000 ≤ c.toNat) ∧ c.toNat < 0x110000 := by
  have h := c.valid
  simp only [UInt32.isValidChar, Nat.isValidChar] at h
  have htoNat : c.toNat = c.val.toNat := rfl
  omega

/-- The code point of a character is that character. -/
theorem codePoint_of_eq_toNat {c : Char} {n : Nat} (h : n = c.toNat) :
    CodePoint.ofNat n = .char c := by
  have hbounds := (toNat_bounds c).1
  rw [h, CodePoint.ofNat, dif_neg (by omega), Char.ofNat_toNat]

/-- No reader of texts has a use for the characters that halves are shown as. -/
theorem shown_halves_unread {c : Char} (h : c = RawText.mark ∨ c = RawText.replacement) :
    isBlank c = false ∧ isWord c = false ∧ digitValue? c = none := by
  rcases h with rfl | rfl
  · refine ⟨?_, ?_, ?_⟩ <;> decide +kernel
  · refine ⟨?_, ?_, ?_⟩ <;> decide +kernel

end Flowchart.Text
