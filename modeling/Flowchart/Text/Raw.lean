import Flowchart.Text.Basic

/-!
# Raw texts

A string that comes from outside may hold half of a pair of UTF-16 units without the other half. No
character is such a half, so the string is no text. A raw text is a list of code points, each of
them a character or a half.

The readers of this library work on texts. What one of them makes of a raw text is found by showing
it the halves as characters, one half at a time marked (`through`): a half comes out where its mark
does. No reader tells a mark from another character that is neither a blank nor a part of a word.
`through_eq` says that the halves are taken along so.
-/

set_option autoImplicit false

namespace Flowchart

/-- Half of a pair of UTF-16 units. -/
structure Half where
  unit : Nat
  bounds : 0xd800 ≤ unit ∧ unit < 0xe000
deriving DecidableEq, Repr

namespace Half

/-- Whether it is the half that a pair begins with. -/
def isFirst (h : Half) : Bool := h.unit < 0xdc00

/-- The character that two halves are the units of. -/
def pair (first second : Half) : Char :=
  Char.ofNat (0x10000 + (first.unit - 0xd800) * 0x400 + (second.unit - 0xdc00))

end Half

inductive CodePoint where
  | char (c : Char)
  | half (h : Half)
deriving DecidableEq, Repr

namespace CodePoint

def ofNat (point : Nat) : CodePoint :=
  if h : 0xd800 ≤ point ∧ point < 0xe000 then .half ⟨point, h⟩ else .char (Char.ofNat point)

def char? : CodePoint → Option Char
  | char c => some c
  | half _ => none

def half? : CodePoint → Option Half
  | char _ => none
  | half h => some h

/-- Whether a code point and the one behind it are the two halves of a pair. -/
def pairsWith : CodePoint → CodePoint → Bool
  | half first, half second => first.isFirst && !second.isFirst
  | _, _ => false

end CodePoint

abbrev RawText := List CodePoint

namespace RawText

def ofText (t : Text) : RawText := t.map .char

/-- Whether there is no half in it, so that it is a text. -/
def isWhole (s : RawText) : Bool := s.all fun point => point.char?.isSome

/-- The characters of a raw text, without its halves. -/
def chars (s : RawText) : Text := s.filterMap CodePoint.char?

/-- The character that stands for what is no character. -/
def replacement : Char := Char.ofNat 0xfffd

/-- The text with the replacement character for each half. -/
def filled (s : RawText) : Text := s.map fun point => point.char?.getD replacement

theorem isWhole_ofText (t : Text) : (ofText t).isWhole = true := by
  simp [isWhole, ofText, CodePoint.char?]

theorem chars_ofText (t : Text) : (ofText t).chars = t := by
  induction t with
  | nil => rfl
  | cons c t ih => exact congrArg (c :: ·) ih

theorem filled_ofText (t : Text) : (ofText t).filled = t := by
  induction t with
  | nil => rfl
  | cons c t ih => exact congrArg (c :: ·) ih

theorem ofText_injective {t u : Text} (h : ofText t = ofText u) : t = u := by
  rw [← chars_ofText t, h, chars_ofText]

/-- A raw text without halves is the text of its characters. -/
theorem ofText_chars {s : RawText} (h : s.isWhole = true) : ofText s.chars = s := by
  induction s with
  | nil => rfl
  | cons point s ih =>
      rw [isWhole, List.all_cons, Bool.and_eq_true] at h
      cases point with
      | char c => exact congrArg (.char c :: ·) (ih h.2)
      | half half => cases h.1

end RawText

/-- A raw text that is no text, since there is a half in it. -/
structure BrokenText where
  points : RawText
  broken : points.isWhole = false
deriving DecidableEq, Repr

namespace RawText

/-! ## Pairs -/

/-- A code point in front of others. The first half of a pair takes the second half along, if that
comes next. -/
def joinTo (s : RawText) : CodePoint → RawText
  | .half first =>
      match s with
      | .half second :: rest =>
          if first.isFirst && !second.isFirst then .char (first.pair second) :: rest
          else .half first :: s
      | _ => .half first :: s
  | .char c => .char c :: s

theorem joinTo_of_not_first {h : Half} (hsecond : h.isFirst = false) (s : RawText) :
    joinTo s (.half h) = .half h :: s := by
  cases s with
  | nil => rfl
  | cons point s =>
      cases point with
      | char c => rfl
      | half second => exact if_neg (by simp [hsecond])

theorem joinTo_pair {first second : Half} (hfirst : first.isFirst = true)
    (hsecond : second.isFirst = false) (s : RawText) :
    joinTo (.half second :: s) (.half first) = .char (first.pair second) :: s := by
  have hpair : (first.isFirst && !second.isFirst) = true := by simp [hfirst, hsecond]
  exact if_pos hpair

/-- The raw text with the two halves of each pair made one character. -/
def joined : RawText → RawText
  | [] => []
  | point :: s => joinTo (joined s) point

/-- Whether no code point makes a pair with the one behind it. -/
def isUnpaired : RawText → Bool
  | [] => true
  | point :: s => (s.head?.all fun next => !point.pairsWith next) && isUnpaired s

/-- A raw text without pairs is as it is. -/
theorem joined_of_isUnpaired {s : RawText} (h : s.isUnpaired = true) : s.joined = s := by
  induction s with
  | nil => rfl
  | cons point s ih =>
      rw [isUnpaired, Bool.and_eq_true] at h
      obtain ⟨hpoint, hrest⟩ := h
      rw [joined, ih hrest]
      cases point with
      | char c => rfl
      | half first =>
          match s with
          | [] => rfl
          | .char c :: s => rfl
          | .half second :: s =>
              rw [List.head?_cons, Option.all_some, Bool.not_eq_true'] at hpoint
              exact if_neg (by rw [← CodePoint.pairsWith, hpoint]; exact Bool.false_ne_true)

theorem joined_ofText (t : Text) : (ofText t).joined = ofText t := by
  induction t with
  | nil => rfl
  | cons c t ih =>
      show joinTo (ofText t).joined (.char c) = .char c :: ofText t
      rw [ih]
      rfl

/-! ## Readers of texts -/

/-- The character that a half is shown as, one half at a time. -/
def mark : Char := Char.ofNat 0xf0000

/-- A code point as it is shown where a half is marked: the replacement character stands for the
other halves, and for a mark that is there already. -/
def markedChar (h : Half) : CodePoint → Char
  | .char c => if c = mark then replacement else c
  | .half other => if other = h then mark else replacement

def marked (h : Half) (s : RawText) : Text := s.map (markedChar h)

def halves (s : RawText) : List Half := s.filterMap CodePoint.half?

/-- What a reader of texts makes of a raw text: a half comes out wherever its mark does, unless the
reader has put a mark there of its own. -/
def through (read : Text → RawText) (s : RawText) : RawText :=
  (read s.filled).mapIdx fun i point =>
    if point = .char mark then point
    else
      ((s.halves.find? fun h => (read (s.marked h))[i]? = some (.char mark)).map .half).getD point

theorem halves_ofText (t : Text) : (ofText t).halves = [] := by
  simp [halves, ofText, CodePoint.half?]

theorem through_ofText (read : Text → RawText) (t : Text) : (ofText t).through read = read t := by
  rw [through, halves_ofText, filled_ofText]
  exact List.mapIdx_eq_iff.mpr fun i => by simp

/-- Where a reader that gives texts makes no text, it has read none. -/
theorem isWhole_eq_false_of_through {read : Text → Text} {s : RawText}
    (h : (s.through fun shown => .ofText (read shown)).isWhole = false) : s.isWhole = false := by
  cases hwhole : s.isWhole with
  | false => rfl
  | true =>
      rw [← ofText_chars hwhole, through_ofText, isWhole_ofText] at h
      cases h

theorem markedChar_eq_mark_iff {h : Half} {point : CodePoint} :
    markedChar h point = mark ↔ point = .half h := by
  have hne : replacement ≠ mark := by decide
  cases point with
  | char c =>
      refine iff_of_false ?_ nofun
      by_cases hmark : c = mark
      · rw [markedChar, if_pos hmark]
        exact hne
      · rw [markedChar, if_neg hmark]
        exact hmark
  | half other =>
      rw [CodePoint.half.injEq]
      by_cases hother : other = h
      · exact iff_of_true (if_pos hother) hother
      · refine iff_of_false ?_ hother
        rw [markedChar, if_neg hother]
        exact hne

/-- A reader that takes each code point from a place of the text, or adds it of its own, and does so
alike whatever the halves are shown as, takes the halves along. -/
theorem through_eq {read : Text → RawText} {s : RawText} (sources : List (CodePoint ⊕ Fin s.length))
    (hfilled : read s.filled =
      sources.map (Sum.elim id fun i => .char (s[i].char?.getD replacement)))
    (hmarked : ∀ h, read (s.marked h) =
      sources.map (Sum.elim id fun i => .char (markedChar h s[i]))) :
    s.through read = sources.map (Sum.elim id fun i => s[i]) := by
  unfold through
  rw [hfilled]
  refine List.ext_getElem (by simp) fun j hj _ => ?_
  have hlength : j < sources.length := by simpa using hj
  simp only [hmarked, List.getElem_mapIdx, List.getElem_map, List.getElem?_map,
    List.getElem?_eq_getElem hlength]
  cases hsource : sources[j] with
  | inl point =>
      -- It is the same whichever half is marked. A mark that is the reader's own stays one.
      by_cases hpoint : point = .char mark
      · rw [hpoint]
        rfl
      · have hnone : (halves s).find? (fun _ => decide (point = .char mark)) = none :=
          List.find?_eq_none.mpr (by simp [hpoint])
        simp only [Option.map_some, Sum.elim_inl, id_eq, Option.some.injEq, if_neg hpoint, hnone]
        rfl
  | inr i =>
      -- It is a mark where the half is marked that stands there, and nowhere else.
      simp only [Option.map_some, Sum.elim_inr, Option.some.injEq, CodePoint.char.injEq,
        markedChar_eq_mark_iff]
      cases hpoint : s[i] with
      | char c =>
          rw [List.find?_eq_none.mpr (by simp)]
          exact ite_self _
      | half h =>
          have hmem : h ∈ halves s :=
            List.mem_filterMap.mpr ⟨s[i], List.getElem_mem i.isLt, by rw [hpoint]; rfl⟩
          cases hfound : (halves s).find? fun other => decide (CodePoint.half h = .half other) with
          | none => exact absurd (List.find?_eq_none.mp hfound h hmem) (by simp)
          | some other =>
              have hother : h = other := by simpa using List.find?_some hfound
              rw [hother]
              rfl

end RawText

end Flowchart
