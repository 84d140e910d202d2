import Flowchart.Encoding.Gap
import Flowchart.Proofs.Text.Character

/-!
# Text written as UTF-8 is read back

The bytes of a character begin what they should, and each later byte lies within the bounds that
the first one sets for it. So the reader finds every character of a text again and no gap
(`decodeFrom_encodeUtf8`), whether it lets halves of pairs pass or not. Main statement:
`readUtf8_encodeUtf8`.
-/

set_option autoImplicit false

namespace Flowchart.Encoding

open Text

/-! ## First bytes -/

section Lead

variable {halves : Bool} {byte : Nat}

theorem lead_one (h : byte < 0x80) : lead halves byte = .char (Char.ofNat byte) :=
  if_pos h

theorem lead_two (hlow : 0xc2 ≤ byte) (hhigh : byte < 0xe0) :
    lead halves byte = .pending ⟨1, 0x80, 0xbf, byte - 0xc0⟩ := by
  rw [lead, if_neg (by omega), if_neg (by omega), if_pos hhigh]

/-- Behind some first bytes the bounds are narrower: what is below has a shorter form, and what is
above are halves of pairs. -/
theorem lead_three (hlow : 0xe0 ≤ byte) (hhigh : byte < 0xf0) :
    lead halves byte = .pending ⟨2, if byte = 0xe0 then 0xa0 else 0x80,
      if byte = 0xed ∧ halves = false then 0x9f else 0xbf, byte - 0xe0⟩ := by
  rw [lead, if_neg (by omega), if_neg (by omega), if_neg (by omega)]
  by_cases hfirst : byte = 0xe0
  · subst hfirst
    rfl
  · by_cases hhalf : byte = 0xed
    · subst hhalf
      cases halves <;> rfl
    · simp only [hfirst, hhalf, hhigh, if_false, if_true, false_and]

theorem lead_four (hlow : 0xf0 ≤ byte) (hhigh : byte ≤ 0xf4) :
    lead halves byte = .pending ⟨3, if byte = 0xf0 then 0x90 else 0x80,
      if byte = 0xf4 then 0x8f else 0xbf, byte - 0xf0⟩ := by
  rw [lead, if_neg (by omega), if_neg (by omega), if_neg (by omega), if_neg (by omega),
    if_neg (by omega), if_neg (by omega)]
  by_cases hfirst : byte = 0xf0
  · subst hfirst
    rfl
  · by_cases hlast : byte = 0xf4
    · subst hlast
      rfl
    · have hmiddle : byte < 0xf4 := by omega
      simp only [hfirst, hlast, hmiddle, if_false, if_true]

end Lead

/-! ## Characters -/

section Bytes

variable {halves : Bool} {begun : Bytes} {missing low high bits n : Nat}

/-- A byte that begins a character of several bytes. -/
theorem decodeFrom_first {p : Pending} (hbyte : n < 256) (h : lead halves n = .pending p)
    (bytes : Bytes) :
    decodeFrom halves begun none (UInt8.ofNat n :: bytes) =
      decodeFrom halves [UInt8.ofNat n] (some p) bytes := by
  rw [decodeFrom, UInt8.toNat_ofNat', Nat.mod_eq_of_lt hbyte, h]

/-- A byte within its bounds that is not the last of its character. -/
theorem decodeFrom_next (hbyte : n < 256) (hlow : low ≤ n) (hhigh : n ≤ high) (bytes : Bytes) :
    decodeFrom halves begun (some ⟨missing + 2, low, high, bits⟩) (UInt8.ofNat n :: bytes) =
      decodeFrom halves (begun ++ [UInt8.ofNat n])
        (some ⟨missing + 1, 0x80, 0xbf, bits * 64 + (n - 0x80)⟩) bytes := by
  have hmissing : missing + 2 ≠ 1 := by omega
  rw [decodeFrom, UInt8.toNat_ofNat', Nat.mod_eq_of_lt hbyte, if_pos ⟨hlow, hhigh⟩,
    if_neg hmissing]
  rfl

/-- A byte within its bounds that is the last of its character. -/
theorem decodeFrom_last (hbyte : n < 256) (hlow : low ≤ n) (hhigh : n ≤ high) (bytes : Bytes) :
    decodeFrom halves begun (some ⟨1, low, high, bits⟩) (UInt8.ofNat n :: bytes) =
      .point (.ofNat (bits * 64 + (n - 0x80))) :: decodeFrom halves [] none bytes := by
  rw [decodeFrom, UInt8.toNat_ofNat', Nat.mod_eq_of_lt hbyte, if_pos ⟨hlow, hhigh⟩, if_pos rfl]

end Bytes

/-- A character is read back from its bytes. -/
theorem decodeFrom_encodeChar (halves : Bool) (c : Char) (bytes : Bytes) :
    decodeFrom halves [] none (String.utf8EncodeChar c ++ bytes) =
      .point (.char c) :: decodeFrom halves [] none bytes := by
  obtain ⟨hwhole, hlimit⟩ := toNat_bounds c
  have htoNat : c.val.toNat = c.toNat := rfl
  unfold String.utf8EncodeChar
  simp only [htoNat]
  by_cases hone : c.toNat ≤ 0x7f
  · rw [if_pos hone, List.singleton_append, decodeFrom, UInt8.toNat_ofNat',
      Nat.mod_eq_of_lt (by omega), lead_one (by omega), Char.ofNat_toNat]
  rw [if_neg hone]
  by_cases htwo : c.toNat ≤ 0x7ff
  · rw [if_pos htwo, List.cons_append, List.singleton_append,
      decodeFrom_first (by omega) (lead_two (by omega) (by omega)),
      decodeFrom_last (by omega) (by omega) (by omega), @codePoint_of_eq_toNat c _ (by omega)]
  rw [if_neg htwo]
  by_cases hthree : c.toNat ≤ 0xffff
  · rw [if_pos hthree, List.cons_append, List.cons_append, List.singleton_append,
      decodeFrom_first (by omega) (lead_three (by omega) (by omega)),
      decodeFrom_next (by omega) (by split <;> omega) (by split <;> omega),
      decodeFrom_last (by omega) (by omega) (by omega), @codePoint_of_eq_toNat c _ (by omega)]
  · rw [if_neg hthree, List.cons_append, List.cons_append, List.cons_append, List.singleton_append,
      decodeFrom_first (by omega) (lead_four (by omega) (by omega)),
      decodeFrom_next (by omega) (by split <;> omega) (by split <;> omega),
      decodeFrom_next (by omega) (by omega) (by omega),
      decodeFrom_last (by omega) (by omega) (by omega), @codePoint_of_eq_toNat c _ (by omega)]

theorem decodeFrom_encodeUtf8 (halves : Bool) (t : Text) :
    decodeFrom halves [] none (encodeUtf8 t) = t.map fun c => .point (.char c) := by
  induction t with
  | nil => rfl
  | cons c t ih =>
      rw [encodeUtf8, List.flatMap_cons, decodeFrom_encodeChar, ← encodeUtf8, ih, List.map_cons]

/-- The replacement character is put nowhere in the bytes of a text. -/
theorem decodeUtf8Lossy_encodeUtf8 (t : Text) : decodeUtf8Lossy (encodeUtf8 t) = t := by
  rw [decodeUtf8Lossy, decodeFrom_encodeUtf8, List.map_map]
  exact List.map_id t

/-- A text is read back from its bytes. -/
theorem readUtf8_encodeUtf8 (t : Text) : readUtf8 (encodeUtf8 t) = .ok t := by
  have hgap : firstGap? (encodeUtf8 t) = none := by
    rw [firstGap?_eq_none_iff, decodeFrom_encodeUtf8, List.forall_mem_map]
    exact fun _ _ => rfl
  rw [readUtf8, hgap, decodeUtf8Lossy_encodeUtf8]

end Flowchart.Encoding
