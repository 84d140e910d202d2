import Flowchart.Proofs.Text.Character
import Flowchart.Value.Document
import Flowchart.Value.Reading

/-!
# Written strings are read back

Each character is read back from its escape (`readString_escapeChar`), whatever follows it: from
itself, from a letter behind a backslash, from the four digits of its UTF-16 unit, or from the
digits of both units of a pair. A half is read back from its digits too, but it takes the half
behind it along if the two make a pair. So a raw text is read back from between its quotes with its
pairs made characters (`readString_escapePoint`), and a text as it is (`readString_writeText`). What
is written are characters that can be typed (`allTyped_writeRaw`).
-/

set_option autoImplicit false

namespace Flowchart.Value

open Text

/-! ## Units -/

theorem hexValue?_hexDigit : ∀ n < 16, hexValue? (hexDigit n) = some n := by
  decide

/-- The four digits of a unit, the highest first. -/
theorem unitEscape_eq (unit : Nat) :
    unitEscape unit = ['\\', 'u', hexDigit (unit / 16 / 16 / 16 % 16),
      hexDigit (unit / 16 / 16 % 16), hexDigit (unit / 16 % 16), hexDigit (unit % 16)] :=
  rfl

theorem unit?_digits {unit : Nat} (h : unit < 0x10000) :
    unit? (hexDigit (unit / 16 / 16 / 16 % 16)) (hexDigit (unit / 16 / 16 % 16))
      (hexDigit (unit / 16 % 16)) (hexDigit (unit % 16)) = some unit := by
  have hdigit (n : Nat) : hexValue? (hexDigit (n % 16)) = some (n % 16) :=
    hexValue?_hexDigit _ (Nat.mod_lt n (by decide))
  have hsum : ((unit / 16 / 16 / 16 % 16 * 16 + unit / 16 / 16 % 16) * 16 + unit / 16 % 16) * 16 +
      unit % 16 = unit := by
    omega
  simp only [unit?, hdigit, Option.bind_eq_bind, Option.bind_some, Option.pure_def, hsum]

/-- A unit is read as its code point. -/
theorem readPoints_unit {unit : Nat} (h : unit < 0x10000) (t : Text) :
    readPoints (unitEscape unit ++ t) =
      (readPoints t).map fun (points, rest) => (.ofNat unit :: points, rest) := by
  rw [unitEscape_eq]
  simp only [List.cons_append, List.nil_append, readPoints, unit?_digits h]

/-- A code point that is read is put in front of those behind it. -/
theorem readString_of_readPoints {written t : Text} {point : CodePoint}
    (h : readPoints (written ++ t) =
      (readPoints t).map fun (points, rest) => (point :: points, rest)) :
    readString (written ++ t) =
      (readString t).map fun (s, rest) => (RawText.joinTo s point, rest) := by
  unfold readString
  rw [h]
  cases readPoints t with
  | none => rfl
  | some read => rfl

theorem readString_unit {unit : Nat} (h : unit < 0x10000) (t : Text) :
    readString (unitEscape unit ++ t) =
      (readString t).map fun (s, rest) => (RawText.joinTo s (.ofNat unit), rest) :=
  readString_of_readPoints (readPoints_unit h t)

/-! ## Characters -/

/-- A character that stands for itself. -/
theorem readPoints_plain {c : Char} (hquote : c ≠ '"') (hslash : c ≠ '\\')
    (hlow : ¬ c.toNat < 0x20) (t : Text) :
    readPoints ([c] ++ t) = (readPoints t).map fun (points, rest) => (.char c :: points, rest) := by
  rw [List.singleton_append, readPoints]
  · rw [if_neg hquote, if_neg (by simp [hlow, hslash])]
  · intro a b d e u h
    exact absurd h hslash
  · intro d u h
    exact absurd h hslash

/-- A letter behind a backslash. -/
theorem readPoints_short {e c : Char} (h : shortEscape? e = some c) (t : Text) :
    readPoints (['\\', e] ++ t) =
      (readPoints t).map fun (points, rest) => (.char c :: points, rest) := by
  rw [List.cons_append, List.singleton_append, readPoints]
  · rw [h]
  · rintro a b d f u rfl
    exact nomatch h

theorem eq_ofNat_of_toNat {c : Char} {n : Nat} (h : c.toNat = n) : c = Char.ofNat n := by
  rw [← h, Char.ofNat_toNat]

/-- The ways in which a character is written inside a text. -/
inductive Escape : Char → Text → Prop where
  | plain {c : Char} (hquote : c ≠ '"') (hslash : c ≠ '\\') (hrange : ' ' ≤ c ∧ c ≤ '~') :
      Escape c [c]
  | short {e c : Char} (he : ' ' ≤ e ∧ e ≤ '~') (h : shortEscape? e = some c) : Escape c ['\\', e]
  | unit {c : Char} (h : c.toNat < 0x10000) : Escape c (unitEscape c.toNat)
  | pair {c : Char} {first second : Nat} (hfirst : 0xd800 ≤ first ∧ first < 0xdc00)
      (hsecond : 0xdc00 ≤ second ∧ second < 0xe000)
      (h : c.toNat = 0x10000 + (first - 0xd800) * 0x400 + (second - 0xdc00)) :
      Escape c (unitEscape first ++ unitEscape second)

theorem Escape.ofShort {e c d : Char} (h : c = d) (he : ' ' ≤ e ∧ e ≤ '~')
    (hshort : shortEscape? e = some d) : Escape c ['\\', e] :=
  .short he (h ▸ hshort)

theorem escape_escapeChar (c : Char) : Escape c (escapeChar c) := by
  unfold escapeChar
  -- One case for each branch, in their order: a later one rests on none before it applying.
  by_cases hquote : c = '"'
  · rw [if_pos hquote]
    exact .ofShort hquote (by decide) rfl
  rw [if_neg hquote]
  by_cases hslash : c = '\\'
  · rw [if_pos hslash]
    exact .ofShort hslash (by decide) rfl
  rw [if_neg hslash]
  by_cases hrange : ' ' ≤ c ∧ c ≤ '~'
  · rw [if_pos hrange]
    exact .plain hquote hslash hrange
  rw [if_neg hrange]
  by_cases hfeed : c = '\n'
  · rw [if_pos hfeed]
    exact .ofShort hfeed (by decide) rfl
  rw [if_neg hfeed]
  by_cases hreturn : c = '\r'
  · rw [if_pos hreturn]
    exact .ofShort hreturn (by decide) rfl
  rw [if_neg hreturn]
  by_cases htab : c = '\t'
  · rw [if_pos htab]
    exact .ofShort htab (by decide) rfl
  rw [if_neg htab]
  by_cases hback : c.toNat = 0x08
  · rw [if_pos hback]
    exact .ofShort (eq_ofNat_of_toNat hback) (by decide) rfl
  rw [if_neg hback]
  by_cases hform : c.toNat = 0x0c
  · rw [if_pos hform]
    exact .ofShort (eq_ofNat_of_toNat hform) (by decide) rfl
  rw [if_neg hform]
  by_cases hunit : c.toNat < 0x10000
  · rw [if_pos hunit]
    exact .unit hunit
  · rw [if_neg hunit]
    have hlimit := (toNat_bounds c).2
    exact .pair (by omega) (by omega) (by omega)

/-- A character is read back from its escape. -/
theorem readString_escapeChar (c : Char) (t : Text) :
    readString (escapeChar c ++ t) = (readString t).map fun (s, rest) => (.char c :: s, rest) := by
  have hescape := escape_escapeChar c
  generalize escapeChar c = written at hescape
  cases hescape with
  | plain hquote hslash hrange =>
      have hlow : 0x20 ≤ c.toNat := hrange.1
      exact readString_of_readPoints (readPoints_plain hquote hslash (by omega) t)
  | short he h => exact readString_of_readPoints (readPoints_short h t)
  | unit h =>
      rw [readString_unit h, codePoint_of_eq_toNat rfl]
      rfl
  | @pair c first second hfirst hsecond h =>
      have hopen : CodePoint.ofNat first = .half ⟨first, by omega⟩ := dif_pos (by omega)
      have hclose : CodePoint.ofNat second = .half ⟨second, by omega⟩ := dif_pos (by omega)
      have hisFirst : Half.isFirst ⟨first, by omega⟩ = true := decide_eq_true hfirst.2
      have hisSecond : Half.isFirst ⟨second, by omega⟩ = false :=
        decide_eq_false (Nat.not_lt.mpr hsecond.1)
      have hpair : Half.pair ⟨first, by omega⟩ ⟨second, by omega⟩ = c := by
        rw [Half.pair, ← h, Char.ofNat_toNat]
      -- The second unit comes first of what stands behind the first, which takes it along.
      rw [List.append_assoc, readString_unit (by omega), readString_unit (by omega), Option.map_map,
        hopen, hclose]
      refine congrArg (Option.map · (readString t)) (funext fun read => ?_)
      obtain ⟨s, rest⟩ := read
      show (RawText.joinTo (RawText.joinTo s _) _, rest) = (.char c :: s, rest)
      rw [RawText.joinTo_of_not_first hisSecond, RawText.joinTo_pair hisFirst hisSecond, hpair]

/-- A code point is read back from its escape, and takes part in a pair. -/
theorem readString_escapePoint (point : CodePoint) (t : Text) :
    readString (escapePoint point ++ t) =
      (readString t).map fun (s, rest) => (RawText.joinTo s point, rest) := by
  cases point with
  | char c => exact readString_escapeChar c t
  | half h =>
      have hbounds := h.bounds
      have hpoint : CodePoint.ofNat h.unit = .half h := dif_pos h.bounds
      rw [escapePoint, readString_unit (by omega), hpoint]

/-- A raw text is read back from between its quotes, with its pairs made characters. -/
theorem readString_escapePoints (s : RawText) (rest : Text) :
    readString (s.flatMap escapePoint ++ '"' :: rest) = some (s.joined, rest) := by
  induction s with
  | nil => rfl
  | cons point s ih =>
      rw [List.flatMap_cons, List.append_assoc, readString_escapePoint, ih]
      rfl

theorem escapePoints_ofText (t : Text) :
    (RawText.ofText t).flatMap escapePoint = t.flatMap escapeChar :=
  List.flatMap_map ..

/-- A text is read back from between its quotes. -/
theorem readString_writeText (t rest : Text) :
    readString (t.flatMap escapeChar ++ '"' :: rest) = some (.ofText t, rest) := by
  rw [← escapePoints_ofText, readString_escapePoints, RawText.joined_ofText]

/-! ## The characters of a written text -/

/-- The characters that can be typed: those from the space to the tilde, and the line feed. -/
def IsTyped (c : Char) : Prop := (' ' ≤ c ∧ c ≤ '~') ∨ c = '\n'

instance (c : Char) : Decidable (IsTyped c) :=
  inferInstanceAs (Decidable ((' ' ≤ c ∧ c ≤ '~') ∨ c = '\n'))

/-- All characters of a text can be typed. -/
def AllTyped (t : Text) : Prop := ∀ c ∈ t, IsTyped c

instance (t : Text) : Decidable (AllTyped t) := List.decidableBAll IsTyped t

theorem allTyped_nil : AllTyped [] := by
  decide

theorem AllTyped.append {s t : Text} (hs : AllTyped s) (ht : AllTyped t) : AllTyped (s ++ t) :=
  List.forall_mem_append.mpr ⟨hs, ht⟩

theorem AllTyped.cons {c : Char} (hc : IsTyped c) {t : Text} (ht : AllTyped t) :
    AllTyped (c :: t) :=
  List.forall_mem_cons.mpr ⟨hc, ht⟩

theorem isTyped_hexDigit : ∀ n < 16, IsTyped (hexDigit n) := by
  decide

theorem allTyped_unitEscape (unit : Nat) : AllTyped (unitEscape unit) := by
  have hdigit (n : Nat) : IsTyped (hexDigit (n % 16)) :=
    isTyped_hexDigit _ (Nat.mod_lt n (by decide))
  have hslash : IsTyped '\\' := by decide
  have hmark : IsTyped 'u' := by decide
  rw [unitEscape_eq]
  exact .cons hslash (.cons hmark
    (.cons (hdigit _) (.cons (hdigit _) (.cons (hdigit _) (.cons (hdigit _) (by decide))))))

theorem allTyped_escapeChar (c : Char) : AllTyped (escapeChar c) := by
  have hescape := escape_escapeChar c
  generalize escapeChar c = written at hescape
  cases hescape with
  | plain hquote hslash hrange => exact .cons (Or.inl hrange) (by decide)
  | short he h =>
      have hslash : IsTyped '\\' := by decide
      exact .cons hslash (.cons (Or.inl he) (by decide))
  | unit h => exact allTyped_unitEscape _
  | pair hfirst hsecond h => exact (allTyped_unitEscape _).append (allTyped_unitEscape _)

theorem allTyped_escapePoint (point : CodePoint) : AllTyped (escapePoint point) := by
  cases point with
  | char c => exact allTyped_escapeChar c
  | half h => exact allTyped_unitEscape h.unit

theorem allTyped_writeRaw (s : RawText) : AllTyped (writeRaw s) := by
  have hquote : AllTyped ['"'] := by decide
  have hpoints : AllTyped (s.flatMap escapePoint) :=
    List.forall_mem_flatMap.mpr fun point _ => allTyped_escapePoint point
  exact (hquote.append hpoints).append hquote

/-- A text is written as the raw text with its characters. -/
theorem writeRaw_ofText (t : Text) : writeRaw (.ofText t) = writeText t := by
  rw [writeRaw, escapePoints_ofText, writeText]

theorem allTyped_writeText (t : Text) : AllTyped (writeText t) := by
  rw [← writeRaw_ofText]
  exact allTyped_writeRaw (.ofText t)

end Flowchart.Value
