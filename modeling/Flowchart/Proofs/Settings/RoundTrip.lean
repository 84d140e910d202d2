import Flowchart.Proofs.Text.Character
import Flowchart.Settings.Basic
import Mathlib.Data.Nat.Digits.Lemmas

/-!
# Settings are in range and are read back

Settings that come from variables are in range: the direction is one of five, and both limits are
positive and have no more digits than an integer may have (`Settings.inRange_ofVariables`). Settings
in range are read back when they are written into variables (`Settings.ofVariables_toVariables`).
Main statement: `Settings.ofVariables_stable`, the two together.

The limit on digits is what ties the two halves together. A text may have so many digits and no
more, so the integer that it writes is below a power of ten (`naturalOf_lt`); and a number below
that power has a decimal that is short enough to be read (`readInteger?_decimal`).
-/

set_option autoImplicit false

namespace Flowchart.Settings

open Text

/-! ## The digits of a number -/

/-- A character of a decimal stands for its distance from the zero. -/
theorem digitValue?_of_isDigit {c : Char} (h : c.isDigit = true) :
    digitValue? c = some (c.toNat - '0'.toNat) := by
  simp only [Char.isDigit, Bool.and_eq_true, decide_eq_true_eq] at h
  have hlow : 0x30 ≤ c.toNat := h.1
  have hhigh : c.toNat ≤ 0x39 := h.2
  have hfirst : (decide (0x30 ≤ c.toNat) && decide (c.toNat < 0x30 + 10)) = true := by
    rw [Bool.and_eq_true, decide_eq_true_eq, decide_eq_true_eq]
    omega
  -- The plain digits are the first run of the table.
  have htable : zeroDigits = 0x30 :: zeroDigits.tail := rfl
  unfold digitValue?
  rw [htable, List.find?_cons_of_pos (p := fun first => decide (first ≤ c.toNat) &&
    decide (c.toNat < first + 10)) hfirst]
  rfl

theorem digitValues?_singleton {c : Char} {n : Nat} (h : digitValue? c = some n) :
    digitValues? [c] = some [n] := by
  unfold digitValues?
  rw [h]

theorem digitValues?_cons {c d : Char} {t : Text} {n : Nat} (h : digitValue? c = some n)
    (hd : d ≠ '_') : digitValues? (c :: d :: t) = (digitValues? (d :: t)).map (n :: ·) := by
  conv_lhs => unfold digitValues?
  rw [h]
  split
  · rename_i hnone
    cases hnone
  · rename_i hnil
    cases hnil
  · rename_i hline
    exact absurd (List.cons.inj hline).1 hd
  · rename_i hn _ _
    rw [Option.some.inj hn]

/-- Digits without low lines between them are read one by one. -/
theorem digitValues?_of_isDigit {t : Text} (hne : t ≠ []) (h : ∀ c ∈ t, c.isDigit = true) :
    digitValues? t = some (t.map fun c => c.toNat - '0'.toNat) := by
  induction t with
  | nil => exact absurd rfl hne
  | cons c t ih =>
      have hc := digitValue?_of_isDigit (h c List.mem_cons_self)
      cases t with
      | nil => exact digitValues?_singleton hc
      | cons d t =>
          have ht := ih (List.cons_ne_nil d t) fun e he => h e (List.mem_cons_of_mem c he)
          have hd : d ≠ '_' := by
            rintro rfl
            exact absurd (h '_' (by simp)) (by decide)
          rw [digitValues?_cons hc hd, ht]
          rfl

theorem lt_of_digitValues? {t : Text} {digits : List Nat} (h : digitValues? t = some digits) :
    ∀ d ∈ digits, d < 10 := by
  fun_induction digitValues? t generalizing digits with
  | case1 => cases h
  | case2 => cases h
  | case3 c n hc =>
      obtain rfl := Option.some.inj h
      intro d hd
      rw [List.mem_singleton.mp hd]
      exact digitValue?_lt hc
  | case4 c n u hc ih =>
      obtain ⟨more, hmore, rfl⟩ := Option.map_eq_some_iff.mp h
      exact List.forall_mem_cons.mpr ⟨digitValue?_lt hc, ih hmore⟩
  | case5 c t n _ _ hc ih =>
      obtain ⟨more, hmore, rfl⟩ := Option.map_eq_some_iff.mp h
      exact List.forall_mem_cons.mpr ⟨digitValue?_lt hc, ih hmore⟩

/-- Digits are added the first one first; the library counts them from the last one on. -/
theorem naturalOf_eq (digits : List Nat) : naturalOf digits = Nat.ofDigits 10 digits.reverse := by
  unfold naturalOf
  rw [Nat.ofDigits_eq_foldr, List.foldr_reverse]
  congr 1
  funext n d
  show n * 10 + d = d + 10 * n
  omega

/-- A number is below the power of ten that has one digit more. -/
theorem naturalOf_lt {digits : List Nat} (h : ∀ d ∈ digits, d < 10) :
    naturalOf digits < 10 ^ digits.length := by
  have hreverse : ∀ d ∈ digits.reverse, d < 10 := fun d hd => h d (List.mem_reverse.mp hd)
  calc naturalOf digits
      = Nat.ofDigits 10 digits.reverse := naturalOf_eq digits
    _ < 10 ^ digits.reverse.length := Nat.ofDigits_lt_base_pow_length (by decide) hreverse
    _ = 10 ^ digits.length := by rw [List.length_reverse]

/-! ## Numbers -/

/-- What is read from a text has no more digits than an integer may have. -/
theorem lt_of_readNatural? {t : Text} {n : Nat} (h : readNatural? t = some n) :
    n < 10 ^ maxDigits := by
  unfold readNatural? at h
  cases hdigits : digitValues? t with
  | none =>
      rw [hdigits] at h
      cases h
  | some digits =>
      simp only [hdigits] at h
      by_cases hlength : digits.length ≤ maxDigits
      · rw [if_pos hlength] at h
        obtain rfl := Option.some.inj h
        calc naturalOf digits
            < 10 ^ digits.length := naturalOf_lt (lt_of_digitValues? hdigits)
          _ ≤ 10 ^ maxDigits := Nat.pow_le_pow_right (by decide) hlength
      · rw [if_neg hlength] at h
        cases h

theorem readNatural?_decimal {n : Nat} (h : n < 10 ^ maxDigits) :
    readNatural? (decimal n) = some n := by
  have hlength : (decimal n).length ≤ maxDigits :=
    (Nat.length_toDigits_le_iff (by decide) (by decide)).mpr h
  have hvalue : naturalOf ((decimal n).map fun c => c.toNat - '0'.toNat) = n := by
    calc naturalOf ((decimal n).map fun c => c.toNat - '0'.toNat)
        = Nat.ofDigitChars 10 (decimal n) 0 := by
          unfold naturalOf Nat.ofDigitChars
          rw [List.foldl_map]
          congr 1
          funext m c
          rw [Nat.mul_comm]
      _ = n := Nat.ofDigitChars_ten_toDigits
  have hdigits : digitValues? (decimal n) =
      some ((decimal n).map fun c => c.toNat - '0'.toNat) :=
    digitValues?_of_isDigit Nat.toDigits_ne_nil fun c => isDigit_of_mem_decimal
  unfold readNatural?
  rw [hdigits]
  simp only [List.length_map, if_pos hlength, hvalue]

/-! ## Integers -/

/-- No blank stands around a text of digits. -/
theorem trimMargins_of_isDigit {t : Text} (h : ∀ c ∈ t, c.isDigit = true) : trimMargins t = t := by
  have hdrop : ∀ u : Text, (∀ c ∈ u, c.isDigit = true) → u.dropWhile isMargin = u := by
    intro u hu
    cases u with
    | nil => rfl
    | cons c u =>
        have hblank : isBlank c = false := isBlank_of_isWord (isWord_of_isDigit (hu c (by simp)))
        apply List.dropWhile_cons_of_neg
        unfold isMargin
        rw [hblank]
        simp
  have hreverse : ∀ c ∈ t.reverse, c.isDigit = true := fun c hc => h c (List.mem_reverse.mp hc)
  rw [trimMargins, hdrop t h, hdrop t.reverse hreverse, List.reverse_reverse]

/-- A number with no more digits than an integer may have is read from its decimal. -/
theorem readInteger?_decimal {n : Nat} (h : n < 10 ^ maxDigits) :
    readInteger? (decimal n) = some (n : Int) := by
  have hdigit : ∀ c ∈ decimal n, c.isDigit = true := fun c => isDigit_of_mem_decimal
  unfold readInteger?
  rw [trimMargins_of_isDigit hdigit]
  -- A decimal begins with a digit, so with no sign.
  split
  · rename_i hminus
    exact absurd (hdigit '-' (by rw [hminus]; simp)) (by decide)
  · rename_i hplus
    exact absurd (hdigit '+' (by rw [hplus]; simp)) (by decide)
  · rw [readNatural?_decimal h]
    rfl

/-- An integer that is read is a number that is read, with a sign or without. -/
theorem exists_readNatural? {t : Text} {n : Int} (h : readInteger? t = some n) :
    ∃ u m, readNatural? u = some m ∧ (n = m ∨ n = -(m : Int)) := by
  unfold readInteger? at h
  split at h
  · rename_i u _
    cases hm : readNatural? u with
    | none => simp [hm] at h
    | some m => exact ⟨u, m, hm, .inr (by simpa [hm] using h.symm)⟩
  · rename_i u _
    cases hm : readNatural? u with
    | none => simp [hm] at h
    | some m => exact ⟨u, m, hm, .inl (by simpa [hm] using h.symm)⟩
  · cases hm : readNatural? (trimMargins t) with
    | none => simp [hm] at h
    | some m => exact ⟨trimMargins t, m, hm, .inl (by simpa [hm] using h.symm)⟩

/-- An integer has no more digits than it may have, whatever its sign. -/
theorem natAbs_lt_of_readInteger? {t : Text} {n : Int} (h : readInteger? t = some n) :
    n.natAbs < 10 ^ maxDigits := by
  obtain ⟨u, m, hm, hn⟩ := exists_readNatural? h
  have habs : n.natAbs = m := by omega
  rw [habs]
  exact lt_of_readNatural? hm

/-! ## Limits -/

/-- A limit is positive and has no more digits than an integer may have. -/
def IsLimit (n : Nat) : Prop := 0 < n ∧ n < 10 ^ maxDigits

theorem isLimit_of_le {n : Nat} (hpos : 0 < n) (hle : n < 10 ^ 6) : IsLimit n :=
  ⟨hpos, lt_of_lt_of_le hle (Nat.pow_le_pow_right (by decide) (by decide))⟩

theorem isLimit_positiveOr {default : Nat} (hdefault : IsLimit default) (raw : Option Text) :
    IsLimit (positiveOr default raw) := by
  unfold positiveOr
  cases hread : raw.bind readInteger? with
  | none => exact hdefault
  | some n =>
      obtain ⟨t, -, ht⟩ := Option.bind_eq_some_iff.mp hread
      have hlt := natAbs_lt_of_readInteger? ht
      by_cases hpos : 0 < n
      · show IsLimit (if 0 < n then n.toNat else default)
        rw [if_pos hpos]
        have hnat : n.toNat = n.natAbs := by omega
        rw [hnat]
        exact ⟨by omega, hlt⟩
      · show IsLimit (if 0 < n then n.toNat else default)
        rw [if_neg hpos]
        exact hdefault

theorem positiveOr_decimal {n : Nat} (h : IsLimit n) (default : Nat) :
    positiveOr default (some (decimal n)) = n := by
  unfold positiveOr
  rw [Option.bind_some, readInteger?_decimal h.2]
  show (if (0 : Int) < n then (n : Int).toNat else default) = n
  rw [if_pos (Int.natCast_pos.mpr h.1), Int.toNat_natCast]

/-! ## Settings -/

/-- Both limits of the settings are such that they can be written and read. -/
structure InRange (s : Settings) : Prop where
  labelLimit : IsLimit s.labelLimit
  inputLimit : IsLimit s.inputLimit

theorem inRange_ofVariables (vars : Variables) : (ofVariables vars).InRange where
  labelLimit := isLimit_positiveOr (isLimit_of_le (by decide) (by decide)) _
  inputLimit := isLimit_positiveOr (isLimit_of_le (by decide) (by decide)) _

theorem directionOr_name (default d : Direction) : directionOr default (some d.name) = d := by
  cases d <;> rfl

theorem any_saysYes (b : Bool) : (some (if b then "true".toList else [])).any saysYes = b := by
  cases b <;> decide

/-- Settings in range are read back, whatever other variables there are. -/
theorem ofVariables_toVariables {s : Settings} (h : s.InRange) (others : Variables) :
    ofVariables (s.toVariables ++ others) = s := by
  have hdirection : (s.toVariables ++ others).get? directionName = some s.direction.name := rfl
  have hlabel : (s.toVariables ++ others).get? labelLimitName = some (decimal s.labelLimit) := rfl
  have hinput : (s.toVariables ++ others).get? inputLimitName = some (decimal s.inputLimit) := rfl
  have htool : (s.toVariables ++ others).get? useToolName =
      some (if s.useTool then "true".toList else []) := rfl
  unfold ofVariables
  rw [hdirection, hlabel, hinput, htool, directionOr_name, positiveOr_decimal h.labelLimit,
    positiveOr_decimal h.inputLimit, any_saysYes]

/-- Whatever the variables are, the settings are in range, and they are read back from the variables
that they are written into, also in front of others. -/
theorem ofVariables_stable (vars others : Variables) :
    (ofVariables vars).direction.name ∈ ["TD", "TB", "BT", "LR", "RL"].map String.toList ∧
      0 < (ofVariables vars).labelLimit ∧ 0 < (ofVariables vars).inputLimit ∧
      ofVariables ((ofVariables vars).toVariables ++ others) = ofVariables vars := by
  have hrange := inRange_ofVariables vars
  refine ⟨?_, hrange.labelLimit.1, hrange.inputLimit.1, ofVariables_toVariables hrange others⟩
  cases (ofVariables vars).direction <;> decide

end Flowchart.Settings
