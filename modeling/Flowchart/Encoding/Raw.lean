import Flowchart.Encoding.Utf8
import Flowchart.Text.Quoted

/-!
# Raw texts that have no bytes

Half of a pair of UTF-16 units has no bytes in UTF-8, so a raw text with one cannot be written.
`writeUtf8` gives the bytes of a raw text, or else the place of the first halves in it;
`firstHalves?_eq_none_iff` says that there is no such place exactly in a text.
-/

set_option autoImplicit false

namespace Flowchart.Encoding

open Text

/-- The place of halves in a raw text: where they begin, and those that follow each other there. -/
structure HalfFault where
  position : Nat
  first : Half
  more : List Half
deriving DecidableEq, Repr

/-- What is said about halves that have no bytes. -/
def HalfFault.message (fault : HalfFault) : Text :=
  let place :=
    match fault.more with
    | [] =>
        "character '\\u".toList ++ hexDigits 4 fault.first.unit ++ "' in position ".toList ++
          decimal fault.position
    | more =>
        "characters in position ".toList ++ decimal fault.position ++ ['-'] ++
          decimal (fault.position + more.length)
  "'utf-8' codec can't encode ".toList ++ place ++ ": surrogates not allowed".toList

/-- The halves that a raw text begins with. -/
def leadingHalves : RawText → List Half
  | .half h :: s => h :: leadingHalves s
  | _ => []

/-- The first halves of a raw text that stands at a position. -/
def halvesFrom (position : Nat) : RawText → Option HalfFault
  | [] => none
  | .char _ :: s => halvesFrom (position + 1) s
  | .half h :: s => some ⟨position, h, leadingHalves s⟩

def firstHalves? (s : RawText) : Option HalfFault := halvesFrom 0 s

/-- The text that a raw text without halves is; for others the place of the first. -/
def wholeText (s : RawText) : Except HalfFault Text :=
  match firstHalves? s with
  | some fault => .error fault
  | none => .ok s.chars

/-- The bytes of a raw text without halves. -/
def writeUtf8 (s : RawText) : Except HalfFault Bytes := (wholeText s).map encodeUtf8

theorem halvesFrom_eq_none_iff (position : Nat) (s : RawText) :
    halvesFrom position s = none ↔ s.isWhole = true := by
  induction s generalizing position with
  | nil => exact ⟨fun _ => rfl, fun _ => rfl⟩
  | cons point s ih =>
      cases point with
      | char c => exact ih (position + 1)
      | half h => exact ⟨nofun, nofun⟩

/-- No halves are found exactly in a text. -/
theorem firstHalves?_eq_none_iff (s : RawText) : firstHalves? s = none ↔ s.isWhole = true :=
  halvesFrom_eq_none_iff 0 s

theorem wholeText_ofText (t : Text) : wholeText (.ofText t) = .ok t := by
  rw [wholeText, (firstHalves?_eq_none_iff _).mpr (RawText.isWhole_ofText t),
    RawText.chars_ofText]

/-- A raw text is the text that it is found to be. -/
theorem wholeText_eq_ok_iff {s : RawText} {t : Text} : wholeText s = .ok t ↔ s = .ofText t := by
  constructor
  · intro h
    unfold wholeText at h
    cases hfirst : firstHalves? s with
    | some fault =>
        rw [hfirst] at h
        cases h
    | none =>
        rw [hfirst] at h
        obtain rfl := Except.ok.inj h
        exact (RawText.ofText_chars ((firstHalves?_eq_none_iff s).mp hfirst)).symm
  · rintro rfl
    exact wholeText_ofText t

/-- A raw text is no text exactly when it has a half. -/
theorem exists_wholeText_eq_error_iff {s : RawText} :
    (∃ fault, wholeText s = .error fault) ↔ s.isWhole = false := by
  rw [← Bool.not_eq_true, ← firstHalves?_eq_none_iff]
  unfold wholeText
  cases firstHalves? s with
  | none => simp
  | some fault => simp

theorem writeUtf8_ofText (t : Text) : writeUtf8 (.ofText t) = .ok (encodeUtf8 t) := by
  rw [writeUtf8, wholeText_ofText]
  rfl

/-- The bytes of a raw text are those of the text that it is. -/
theorem writeUtf8_eq_ok_iff {s : RawText} {bytes : Bytes} :
    writeUtf8 s = .ok bytes ↔ ∃ t, s = .ofText t ∧ bytes = encodeUtf8 t := by
  constructor
  · intro h
    unfold writeUtf8 at h
    cases hwhole : wholeText s with
    | error fault =>
        rw [hwhole] at h
        cases h
    | ok t =>
        rw [hwhole] at h
        exact ⟨t, wholeText_eq_ok_iff.mp hwhole, (Except.ok.inj h).symm⟩
  · rintro ⟨t, rfl, rfl⟩
    exact writeUtf8_ofText t

/-- What has no bytes is no text. -/
theorem isWhole_eq_false_of_writeUtf8 {s : RawText} {fault : HalfFault}
    (h : writeUtf8 s = .error fault) : s.isWhole = false := by
  cases hwhole : s.isWhole with
  | false => rfl
  | true =>
      rw [← RawText.ofText_chars hwhole, writeUtf8_ofText] at h
      cases h

end Flowchart.Encoding
