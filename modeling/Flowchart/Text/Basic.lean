import Flowchart.Text.Blank
import Flowchart.Text.Word

/-!
# Text

A text is a list of characters, none of which is half of a pair of UTF-16 units; a string that may
hold such halves is a raw text (`RawText`). This module holds the cuts that the readers of the
library share: stripping blanks at the ends, removing a known beginning or end, cutting at the first
occurrence of a character, splitting at every occurrence, and the words of a line.

`after?_eq_some_iff` says that a beginning is removed exactly when it is there, and
`cutAt_eq_some_iff` that a cut is made at the first occurrence and nowhere else.
-/

set_option autoImplicit false

namespace Flowchart

abbrev Text := List Char

namespace Text

/-! ## Runs -/

/-- A run of characters with a property ends where the next one does not have it. -/
theorem takeWhile_dropWhile_iff {p : Char → Bool} {t run rest : Text} :
    t.takeWhile p = run ∧ t.dropWhile p = rest ↔
      t = run ++ rest ∧ (∀ c ∈ run, p c = true) ∧ ∀ c ∈ rest.head?, p c = false := by
  constructor
  · rintro ⟨rfl, rfl⟩
    refine ⟨List.takeWhile_append_dropWhile.symm, List.all_eq_true.mp List.all_takeWhile, ?_⟩
    intro c hc
    have hhead := List.head?_dropWhile_not p t
    rw [Option.mem_def.mp hc] at hhead
    simpa using hhead
  · rintro ⟨rfl, hrun, hrest⟩
    rw [List.takeWhile_append_of_pos hrun, List.dropWhile_append_of_pos hrun]
    cases rest with
    | nil => exact ⟨List.append_nil run, rfl⟩
    | cons c rest =>
        have hc : ¬ p c = true := by simp [hrest c rfl]
        rw [List.takeWhile_cons_of_neg hc, List.dropWhile_cons_of_neg hc, List.append_nil]
        exact ⟨rfl, rfl⟩

/-! ## Blanks at the ends -/

/-- The text without the blanks it begins with. -/
def stripLeft (t : Text) : Text := t.dropWhile isBlank

/-- The text without the blanks it ends in. -/
def stripRight (t : Text) : Text := (t.reverse.dropWhile isBlank).reverse

/-- The text without the blanks at either end. -/
def strip (t : Text) : Text := stripRight (stripLeft t)

def isAllBlank (t : Text) : Bool := t.all isBlank

/-! ## Beginnings and ends -/

/-- What follows `start`, if the text begins with it. -/
def after? : (start : Text) → Text → Option Text
  | [], t => some t
  | _ :: _, [] => none
  | s :: start, c :: t => if s = c then after? start t else none

/-- A beginning is removed exactly when the text begins with it. -/
theorem after?_eq_some_iff {start t rest : Text} :
    after? start t = some rest ↔ t = start ++ rest := by
  induction start generalizing t with
  | nil => simp [after?]
  | cons s start ih =>
      cases t with
      | nil => simp [after?]
      | cons c t =>
          by_cases h : s = c
          · simp [after?, h, ih]
          · have : c ≠ s := fun e => h e.symm
            simp [after?, h, this]

/-- Whether the text begins with `start`. -/
def startsWith (start t : Text) : Bool := (after? start t).isSome

/-- What precedes `ending`, if the text ends in it. -/
def before? (ending t : Text) : Option Text := (after? ending.reverse t.reverse).map List.reverse

/-- Whether `part` occurs somewhere in the text. -/
def hasPart (part : Text) : Text → Bool
  | [] => part.isEmpty
  | c :: t => startsWith part (c :: t) || hasPart part t

/-- Whether no word goes on here: the text is at its end or at a character outside words. -/
def wordEnds : Text → Bool
  | [] => true
  | c :: _ => !isWord c

/-- What follows the word `word`, if the text begins with it and the word ends there. -/
def afterWord? (word t : Text) : Option Text := (after? word t).filter wordEnds

/-- What follows a run of at least one blank. -/
def afterBlanks? : Text → Option Text
  | c :: t => if isBlank c then some (stripLeft t) else none
  | [] => none

/-! ## Cuts -/

/-- The parts before and after the first occurrence of `sep`. -/
def cutAt (sep : Char) : Text → Option (Text × Text)
  | [] => none
  | c :: t => if c = sep then some ([], t) else (cutAt sep t).map fun (a, b) => (c :: a, b)

/-- A cut is made at the first occurrence, and whenever there is one. -/
theorem cutAt_eq_some_iff {sep : Char} {t a b : Text} :
    cutAt sep t = some (a, b) ↔ t = a ++ sep :: b ∧ sep ∉ a := by
  induction t generalizing a with
  | nil => simp [cutAt]
  | cons c t ih =>
      by_cases h : c = sep
      · subst h
        cases a with
        | nil => simp [cutAt, eq_comm]
        | cons x a =>
            simp only [cutAt, if_true, Option.some.injEq, Prod.mk.injEq, List.cons_append,
              List.cons.injEq, List.mem_cons, not_or]
            constructor
            · rintro ⟨h, _⟩
              cases h
            · rintro ⟨⟨h, _⟩, h', _⟩
              exact absurd h h'
      · cases a with
        | nil =>
            simp only [cutAt, h, if_false, Option.map_eq_some_iff, List.nil_append,
              List.cons.injEq, false_and]
            constructor
            · rintro ⟨p, _, hp⟩
              cases hp
            · rintro ⟨h, _⟩
        | cons x a =>
            have hne : sep ≠ c := fun e => h e.symm
            simp only [cutAt, h, if_false, Option.map_eq_some_iff, List.cons_append,
              List.cons.injEq, List.mem_cons, not_or]
            constructor
            · rintro ⟨⟨a', b'⟩, hp, heq⟩
              simp only [Prod.mk.injEq, List.cons.injEq] at heq
              obtain ⟨⟨rfl, rfl⟩, rfl⟩ := heq
              obtain ⟨h1, h2⟩ := ih.mp hp
              exact ⟨⟨rfl, h1⟩, hne, h2⟩
            · rintro ⟨⟨rfl, h1⟩, _, h2⟩
              exact ⟨(a, b), ih.mpr ⟨h1, h2⟩, rfl⟩

theorem cutAt_of_not_mem {sep : Char} {t : Text} (h : sep ∉ t) : cutAt sep t = none := by
  rw [Option.eq_none_iff_forall_ne_some]
  rintro ⟨before, behind⟩ hcut
  obtain ⟨rfl, -⟩ := cutAt_eq_some_iff.mp hcut
  simp at h

/-- The character put in front of the first piece. -/
def consHead (c : Char) : List Text → List Text
  | [] => [[c]]
  | piece :: more => (c :: piece) :: more

/-- The pieces of a text between the occurrences of `sep`: one more than there are. -/
def pieces (sep : Char) : Text → List Text
  | [] => [[]]
  | c :: t => if c = sep then [] :: pieces sep t else consHead c (pieces sep t)

/-- The first `n` characters; for a negative `n`, all but the last `-n`. -/
def keep (n : Int) (t : Text) : Text :=
  if n < 0 then t.take (t.length - n.natAbs) else t.take n.toNat

/-- A text that has no line feed but perhaps one at its very end, without that one. -/
def lastLine? : Text → Option Text
  | [] => some []
  | c :: t =>
      if c = '\n' then (if t.isEmpty then some [] else none) else (lastLine? t).map (c :: ·)

/-! ## Texts put together -/

/-- The texts with `sep` between each two of them. -/
def join (sep : Text) : List Text → Text
  | [] => []
  | [t] => t
  | t :: u :: more => t ++ sep ++ join sep (u :: more)

/-- The text with every `c` replaced by `new`. -/
def replaceChar (c : Char) (new t : Text) : Text := t.flatMap fun d => if d = c then new else [d]

def decimal (n : Nat) : Text := Nat.toDigits 10 n

/-- The decimal of a number holds digits only. -/
theorem isDigit_of_mem_decimal {n : Nat} {c : Char} (h : c ∈ decimal n) : c.isDigit = true :=
  Nat.isDigit_of_mem_toDigits (by decide) (by decide) h

/-- The decimal digits of an integer, after a minus sign when it is negative. -/
def signedDecimal (n : Int) : Text :=
  if n < 0 then '-' :: decimal n.natAbs else decimal n.toNat

end Text

end Flowchart
