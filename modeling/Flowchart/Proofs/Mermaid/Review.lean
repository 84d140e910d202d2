import Flowchart.Mermaid.Scratch
import Flowchart.Proofs.Encoding.Utf8
import Flowchart.Proofs.Text.Cuts
import Mathlib.Data.List.Forall2

/-!
# Checks by the syntax tool

Trouble with the tool is no fault of the diagram, whatever its runs come to. A check breaks off
only where the diagram cannot be written, or where the run that decides breaks off. Main statement:
`reviewOn_reviewed`, which says which commands are run and on what, when a check breaks off, when a
diagram is found invalid, and what is left of the scratch files.

An attempt is described once, by its finding and the workshop after it (`attempt_run`); what a list
of commands comes to follows by induction on the list (`attempts_run`, `tried_tryCommands`).
-/

set_option autoImplicit false

open scoped List

namespace Flowchart.Mermaid

open Text

/-! ## Words in letters of either case -/

/-- A character is a letter of a word, in lower case or in upper case. The Kelvin sign is a capital
`K`. -/
def Spells (c letter : Char) : Prop :=
  c = letter ∨ c = letter.toUpper ∨ (c.toNat = 0x212a ∧ letter = 'k')

/-- A text holds a word, in letters of either case. -/
def Mentions (word t : Text) : Prop :=
  ∃ before written behind, t = before ++ written ++ behind ∧ List.Forall₂ Spells written word

theorem toNat_toLower (c : Char) :
    c.toLower.toNat = if 65 ≤ c.toNat ∧ c.toNat ≤ 90 then c.toNat + 32 else c.toNat := by
  unfold Char.toLower
  by_cases h : c.val ≥ 'A'.val ∧ c.val ≤ 'Z'.val
  · have hrange : 65 ≤ c.toNat ∧ c.toNat ≤ 90 := h
    rw [dif_pos h, if_pos hrange]
    show (c.val + ('a'.val - 'A'.val)).toNat = c.toNat + 32
    have hval : c.val.toNat = c.toNat := rfl
    rw [UInt32.toNat_add, hval, Nat.mod_eq_of_lt]
    · rfl
    · show c.toNat + 32 < 2 ^ 32
      omega
  · have hrange : ¬ (65 ≤ c.toNat ∧ c.toNat ≤ 90) := h
    rw [dif_neg h, if_neg hrange]

theorem toNat_toUpper (c : Char) :
    c.toUpper.toNat = if 97 ≤ c.toNat ∧ c.toNat ≤ 122 then c.toNat - 32 else c.toNat := by
  unfold Char.toUpper
  by_cases h : 'a'.val ≤ c.val ∧ c.val ≤ 'z'.val
  · have hrange : 97 ≤ c.toNat ∧ c.toNat ≤ 122 := h
    rw [dif_pos h, if_pos hrange]
    show (c.val + ('A'.val - 'a'.val)).toNat = c.toNat - 32
    have hval : c.val.toNat = c.toNat := rfl
    have hdistance : ('A'.val - 'a'.val).toNat = 2 ^ 32 - 32 := by decide
    rw [UInt32.toNat_add, hval, hdistance]
    omega
  · have hrange : ¬ (97 ≤ c.toNat ∧ c.toNat ≤ 122) := h
    rw [dif_neg h, if_neg hrange]

/-- A character is lowered to a letter exactly when it spells it. The letter is none in upper
case. -/
theorem lowered_eq_iff {c letter : Char} (hplain : letter.toNat < 128)
    (hlower : ¬ (65 ≤ letter.toNat ∧ letter.toNat ≤ 90)) :
    lowered c = letter ↔ Spells c letter := by
  have hk : ('k' : Char).toNat = 107 := rfl
  unfold lowered Spells
  rw [← Char.toNat_inj, ← Char.toNat_inj, ← Char.toNat_inj, ← Char.toNat_inj (c := letter),
    toNat_toUpper, hk]
  by_cases hkelvin : c.toNat = 0x212a
  · rw [if_pos hkelvin, hk]
    split <;> omega
  · rw [if_neg hkelvin, toNat_toLower]
    split <;> split <;> omega

/-- The letters of a word are none in upper case. -/
def IsLowercase (word : Text) : Prop :=
  ∀ letter ∈ word, letter.toNat < 128 ∧ ¬ (65 ≤ letter.toNat ∧ letter.toNat ≤ 90)

theorem map_lowered_eq_iff {written word : Text} (h : IsLowercase word) :
    written.map lowered = word ↔ List.Forall₂ Spells written word := by
  induction word generalizing written with
  | nil => rw [List.map_eq_nil_iff, List.forall₂_nil_right_iff]
  | cons letter word ih =>
      have hletter := h letter List.mem_cons_self
      have hword : IsLowercase word := fun d hd => h d (List.mem_cons_of_mem letter hd)
      rw [List.map_eq_cons_iff, List.forall₂_cons_right_iff]
      constructor
      · rintro ⟨c, t, rfl, hc, ht⟩
        exact ⟨c, t, (lowered_eq_iff hletter.1 hletter.2).mp hc, (ih hword).mp ht, rfl⟩
      · rintro ⟨c, t, hc, ht, rfl⟩
        exact ⟨c, t, rfl, (lowered_eq_iff hletter.1 hletter.2).mpr hc, (ih hword).mpr ht⟩

theorem hasPart_map_lowered {word t : Text} (h : IsLowercase word) :
    hasPart word (t.map lowered) = true ↔ Mentions word t := by
  rw [hasPart_iff]
  constructor
  · rintro ⟨before, behind, ht⟩
    obtain ⟨u, v, rfl, hu, -⟩ := List.map_eq_append_iff.mp ht.symm
    obtain ⟨first, written, rfl, -, hwritten⟩ := List.map_eq_append_iff.mp hu
    exact ⟨first, written, v, rfl, (map_lowered_eq_iff h).mp hwritten⟩
  · rintro ⟨before, written, behind, rfl, hspells⟩
    rw [List.map_append, List.map_append, (map_lowered_eq_iff h).mpr hspells]
    exact ⟨_, _, rfl⟩

theorem isLowercase_of_mem_troubleWords {word : Text} (h : word ∈ troubleWords) :
    IsLowercase word := by
  have hall : (troubleWords.all fun word => word.all fun letter =>
      decide (letter.toNat < 128 ∧ ¬ (65 ≤ letter.toNat ∧ letter.toNat ≤ 90))) = true := by decide
  intro letter hletter
  exact of_decide_eq_true (List.all_eq_true.mp (List.all_eq_true.mp hall word h) letter hletter)

/-! ## The end of a run -/

/-- What a failed run has to say: what it has written as errors, or else as its output. -/
inductive Written : (output errors written : Text) → Prop where
  | errors {output errors : Text} (h : errors ≠ []) : Written output errors errors
  | output {output : Text} (h : output ≠ []) : Written output [] output
  | nothing : Written [] [] "Unknown error".toList

/-- A run is of no use: there is no tool, it takes too long, or it fails with a message of trouble
with the tool itself. The message is stripped and cut to 500 characters before it is looked at. -/
inductive Unavailable : ToolRun → Prop where
  | missing : Unavailable .missing
  | timeout : Unavailable .timeout
  | trouble {code : Int} {output errors written word : Text} (hcode : code ≠ 0)
      (hwritten : Written output errors written) (hword : word ∈ troubleWords)
      (hmentions : Mentions word ((strip written).take 500)) :
      Unavailable (.finished code output errors)

/-- A run ends with an exit code other than zero. -/
def Fails (run : ToolRun) : Prop :=
  ∃ code output errors, run = .finished code output errors ∧ code ≠ 0

/-- A run has no end that an attempt can deal with. -/
inductive Breaks : ToolRun → Prop where
  | barred {reason : Text} : Breaks (.barred reason)
  | garbled {gap : Encoding.Gap} : Breaks (.garbled gap)

theorem exists_written (output errors : Text) : ∃ written, Written output errors written := by
  cases errors with
  | cons c errors => exact ⟨c :: errors, .errors (List.cons_ne_nil c errors)⟩
  | nil =>
      cases output with
      | cons c output => exact ⟨c :: output, .output (List.cons_ne_nil c output)⟩
      | nil => exact ⟨"Unknown error".toList, .nothing⟩

theorem Written.runMessage_eq {output errors written : Text} (h : Written output errors written) :
    runMessage output errors = (strip written).take 500 := by
  cases h with
  | errors h =>
      obtain ⟨c, t, rfl⟩ := List.exists_cons_of_ne_nil h
      rfl
  | output h =>
      obtain ⟨c, t, rfl⟩ := List.exists_cons_of_ne_nil h
      rfl
  | nothing => rfl

theorem tellsOfTrouble_iff {message : Text} :
    tellsOfTrouble message = true ↔ ∃ word ∈ troubleWords, Mentions word message := by
  unfold tellsOfTrouble
  rw [List.any_eq_true]
  constructor
  · rintro ⟨word, hword, hpart⟩
    exact ⟨word, hword, (hasPart_map_lowered (isLowercase_of_mem_troubleWords hword)).mp hpart⟩
  · rintro ⟨word, hword, hmentions⟩
    exact ⟨word, hword,
      (hasPart_map_lowered (isLowercase_of_mem_troubleWords hword)).mpr hmentions⟩

/-- A run that has ended is of no use exactly when it has failed and tells of trouble. -/
theorem unavailable_finished_iff {code : Int} {output errors : Text} :
    Unavailable (.finished code output errors) ↔
      code ≠ 0 ∧ tellsOfTrouble (runMessage output errors) = true := by
  rw [tellsOfTrouble_iff]
  constructor
  · rintro (_ | _ | ⟨hcode, hwritten, hword, hmentions⟩)
    refine ⟨hcode, _, hword, ?_⟩
    rwa [hwritten.runMessage_eq]
  · rintro ⟨hcode, word, hword, hmentions⟩
    obtain ⟨written, hwritten⟩ := exists_written output errors
    rw [hwritten.runMessage_eq] at hmentions
    exact .trouble hcode hwritten hword hmentions

/-- What comes of a run: it is of no use, accepts the diagram, refuses it, or breaks off. -/
inductive Result : ToolRun → Except ReviewFault Finding → Prop where
  | useless {run : ToolRun} (h : Unavailable run) : Result run (.ok .unavailable)
  | accepts {run : ToolRun} (huse : ¬ Unavailable run) (hfails : ¬ Fails run)
      (hbreaks : ¬ Breaks run) : Result run (.ok .accepted)
  | refuses {run : ToolRun} (huse : ¬ Unavailable run) (hfails : Fails run)
      (hbreaks : ¬ Breaks run) (message : Text) : Result run (.ok (.refused message))
  | breaks {run : ToolRun} (huse : ¬ Unavailable run) (hfails : ¬ Fails run)
      (hbreaks : Breaks run) (fault : ReviewFault) : Result run (.error fault)

theorem result_finding (run : ToolRun) : Result run run.finding := by
  cases run with
  | missing => exact .useless .missing
  | timeout => exact .useless .timeout
  | barred reason =>
      have huse : ¬ Unavailable (.barred reason) := nofun
      have hfails : ¬ Fails (.barred reason) := nofun
      exact .breaks huse hfails .barred (.barred reason)
  | garbled gap =>
      have huse : ¬ Unavailable (.garbled gap) := nofun
      have hfails : ¬ Fails (.garbled gap) := nofun
      exact .breaks huse hfails .garbled (.garbled gap)
  | finished code output errors =>
      have huse := @unavailable_finished_iff code output errors
      rw [ToolRun.finding, findingOf]
      by_cases hcode : code = 0
      · rw [if_pos hcode]
        refine .accepts (fun h => (huse.mp h).1 hcode) ?_ nofun
        rintro ⟨_, _, _, heq, hne⟩
        cases heq
        exact hne hcode
      · rw [if_neg hcode]
        by_cases htrouble : tellsOfTrouble (runMessage output errors) = true
        · rw [if_pos htrouble]
          exact .useless (huse.mpr ⟨hcode, htrouble⟩)
        · rw [if_neg htrouble]
          exact .refuses (fun h => htrouble (huse.mp h).2) ⟨code, output, errors, rfl, hcode⟩
            nofun _

/-! ## A list of commands -/

/-- How the run number `k` ends; a run for which no end is given finds no tool. -/
def endOf (runs : List ToolRun) (k : Nat) : ToolRun := runs.getD k .missing

/-- The run number `k` is the first one of use. -/
structure FirstOfUse (runs : List ToolRun) (k : Nat) : Prop where
  before : ∀ j < k, Unavailable (endOf runs j)
  this : ¬ Unavailable (endOf runs k)

/-- One of the first `n` runs is of use, and the first of them is as `P` says. -/
def Decides (P : ToolRun → Prop) (n : Nat) (runs : List ToolRun) : Prop :=
  ∃ k < n, FirstOfUse runs k ∧ P (endOf runs k)

theorem endOf_zero (runs : List ToolRun) : endOf runs 0 = runs.headD .missing := by
  cases runs with
  | nil => rfl
  | cons run runs => rfl

theorem endOf_succ (runs : List ToolRun) (k : Nat) : endOf runs (k + 1) = endOf runs.tail k := by
  cases runs with
  | nil => rfl
  | cons run runs => rfl

theorem firstOfUse_zero_iff {runs : List ToolRun} :
    FirstOfUse runs 0 ↔ ¬ Unavailable (endOf runs 0) :=
  ⟨fun h => h.this, fun h => ⟨fun j hj => absurd hj (Nat.not_lt_zero j), h⟩⟩

theorem firstOfUse_succ_iff {runs : List ToolRun} {k : Nat} :
    FirstOfUse runs (k + 1) ↔ Unavailable (endOf runs 0) ∧ FirstOfUse runs.tail k := by
  constructor
  · intro h
    refine ⟨h.before 0 (Nat.zero_lt_succ k), ⟨fun j hj => ?_, ?_⟩⟩
    · rw [← endOf_succ]
      exact h.before (j + 1) (Nat.succ_lt_succ hj)
    · rw [← endOf_succ]
      exact h.this
  · rintro ⟨hfirst, h⟩
    refine ⟨fun j hj => ?_, ?_⟩
    · cases j with
      | zero => exact hfirst
      | succ j =>
          rw [endOf_succ]
          exact h.before j (Nat.lt_of_succ_lt_succ hj)
    · rw [endOf_succ]
      exact h.this

section Decides

variable {P : ToolRun → Prop} {n : Nat} {runs : List ToolRun}

theorem not_decides_zero : ¬ Decides P 0 runs := by
  rintro ⟨k, hk, -⟩
  exact Nat.not_lt_zero k hk

/-- A first run of use decides. -/
theorem decides_succ_of_use (h : ¬ Unavailable (endOf runs 0)) :
    Decides P (n + 1) runs ↔ P (endOf runs 0) := by
  unfold Decides
  rw [Nat.exists_lt_succ_left]
  simp only [firstOfUse_zero_iff, firstOfUse_succ_iff, h, not_false_eq_true, true_and, false_and,
    and_false, exists_false, or_false]

/-- A first run of no use leaves it to those behind it. -/
theorem decides_succ_of_useless (h : Unavailable (endOf runs 0)) :
    Decides P (n + 1) runs ↔ Decides P n runs.tail := by
  unfold Decides
  rw [Nat.exists_lt_succ_left]
  simp only [firstOfUse_zero_iff, firstOfUse_succ_iff, endOf_succ, h, not_true_eq_false, false_and,
    false_or, true_and]

end Decides

/-- The run that a command is tried with. -/
def callOf (diagram : Text) (command : List Text) : ToolCall := ⟨command ++ toolArguments, diagram⟩

/-- A review ends, and finds the diagram invalid. -/
def Review.IsInvalid (review : Review) : Prop := ∃ message, review.outcome = .ok ⟨false, message⟩

/-- A review breaks off. -/
def Review.IsBroken (review : Review) : Prop := ∃ fault, review.outcome = .error fault

/-- What comes of commands that are tried on a diagram one after the other. -/
structure Tried (diagram : Text) (commands : List (List Text)) (runs : List ToolRun)
    (review : Review) : Prop where
  /-- A command is run exactly when all those before it are of no use. -/
  calls : ∃ n, review.calls = (commands.take n).map (callOf diagram) ∧
    ∀ k < commands.length, k < n ↔ ∀ j < k, Unavailable (endOf runs j)
  invalid_iff : review.IsInvalid ↔ Decides Fails commands.length runs
  broken_iff : review.IsBroken ↔ Decides Breaks commands.length runs

theorem tried_nil (diagram : Text) (runs : List ToolRun) :
    Tried diagram [] runs (tryCommands diagram [] runs) where
  calls := ⟨0, rfl, fun k hk => absurd hk (Nat.not_lt_zero k)⟩
  invalid_iff := iff_of_false nofun not_decides_zero
  broken_iff := iff_of_false nofun not_decides_zero

/-- A command of no use leaves it to those behind it. -/
theorem Tried.cons {diagram : Text} {command : List Text} {commands : List (List Text)}
    {runs : List ToolRun} {review : Review} (h : Tried diagram commands runs.tail review)
    (huseless : Unavailable (endOf runs 0)) :
    Tried diagram (command :: commands) runs
      { review with calls := callOf diagram command :: review.calls } where
  calls := by
    obtain ⟨n, hcalls, hn⟩ := h.calls
    refine ⟨n + 1, by rw [hcalls, List.take_succ_cons, List.map_cons], fun k hk => ?_⟩
    cases k with
    | zero => simp
    | succ k =>
        have hlater := hn k (Nat.lt_of_succ_lt_succ hk)
        rw [Nat.add_lt_add_iff_right, hlater, Nat.forall_lt_succ_left]
        simp only [endOf_succ, huseless, true_and]
  invalid_iff := h.invalid_iff.trans (decides_succ_of_useless huseless).symm
  broken_iff := h.broken_iff.trans (decides_succ_of_useless huseless).symm

/-- A command of use is the last one that is run. -/
theorem tried_of_use {diagram : Text} {command : List Text} {commands : List (List Text)}
    {runs : List ToolRun} {review : Review} (huse : ¬ Unavailable (endOf runs 0))
    (hcalls : review.calls = [callOf diagram command])
    (hinvalid : review.IsInvalid ↔ Fails (endOf runs 0))
    (hbroken : review.IsBroken ↔ Breaks (endOf runs 0)) :
    Tried diagram (command :: commands) runs review where
  calls := by
    refine ⟨1, by rw [hcalls]; rfl, fun k _ => ?_⟩
    cases k with
    | zero => simp
    | succ k =>
        constructor
        · intro hk
          omega
        · intro hall
          exact absurd (hall 0 (Nat.zero_lt_succ k)) huse
  invalid_iff := hinvalid.trans (decides_succ_of_use huse).symm
  broken_iff := hbroken.trans (decides_succ_of_use huse).symm

/-- By induction on the commands, each of them with the end of its run. -/
theorem tried_tryCommands (diagram : Text) (commands : List (List Text)) (runs : List ToolRun) :
    Tried diagram commands runs (tryCommands diagram commands runs) := by
  induction commands generalizing runs with
  | nil => exact tried_nil diagram runs
  | cons command commands ih =>
      have hresult := result_finding (endOf runs 0)
      rw [tryCommands, ← endOf_zero]
      generalize (endOf runs 0).finding = found at hresult
      cases hresult with
      | useless huseless => exact (ih runs.tail).cons huseless
      | accepts huse hfails hbreaks =>
          exact tried_of_use huse rfl (iff_of_false nofun hfails) (iff_of_false nofun hbreaks)
      | refuses huse hfails hbreaks message =>
          exact tried_of_use huse rfl (iff_of_true ⟨_, rfl⟩ hfails) (iff_of_false nofun hbreaks)
      | breaks huse hfails hbreaks fault =>
          exact tried_of_use huse rfl (iff_of_false nofun hfails) (iff_of_true ⟨_, rfl⟩ hbreaks)

/-! ## Attempts -/

section Attempts

variable (scratch : ScratchFiles)

/-- How something done in a workshop ends. -/
def ended {α : Type} (outcome : Except ReviewFault α) (after : Workshop) :
    EStateM.Result ReviewFault Workshop α :=
  match outcome with
  | .ok a => .ok a after
  | .error fault => .error fault after

/-- The workshop after an attempt with a command. -/
def Workshop.afterAttempt (shop : Workshop) (command : List Text) : Workshop :=
  shop.afterRun scratch (callOf (shop.textAt scratch.diagram) command)

/-- A run uses up its end, whatever that is. -/
theorem runTool_run (command : List Text) (shop : Workshop) :
    (runTool scratch command).run shop =
      match endOf shop.runs 0 with
      | .missing => .error .missing (shop.afterAttempt scratch command)
      | .timeout => .error .timeout (shop.afterAttempt scratch command)
      | .barred reason => .error (.other (.barred reason)) (shop.afterAttempt scratch command)
      | .garbled gap => .error (.other (.garbled gap)) (shop.afterAttempt scratch command)
      | .finished code output errors =>
          .ok (code, output, errors) (shop.afterAttempt scratch command) := by
  unfold runTool Workshop.afterAttempt
  rw [EStateM.run_bind, EStateM.run_get, endOf_zero]
  simp only [EStateM.run_bind, EStateM.run_set]
  cases shop.runs.headD .missing <;> rfl

/-- An attempt finds what the end of its run is worth. -/
theorem attempt_run (command : List Text) (shop : Workshop) :
    (attempt scratch command).run shop =
      ended (endOf shop.runs 0).finding (shop.afterAttempt scratch command) := by
  show attempt scratch command shop = _
  unfold attempt
  rw [runTool_run]
  cases endOf shop.runs 0 <;> rfl

/-! ## The files of a check -/

theorem ScratchFiles.diagram_ne_drawing (scratch : ScratchFiles) :
    scratch.diagram ≠ scratch.drawing := by
  intro h
  have hname := List.append_cancel_left h
  have hending := List.append_cancel_left (List.cons.inj hname).1
  exact absurd hending (by decide)

/-- An attempt changes no file but the drawing. -/
theorem read?_afterAttempt (command : List Text) (shop : Workshop) (place : Place)
    (h : place ≠ scratch.drawing) :
    (shop.afterAttempt scratch command).tree.read? place = shop.tree.read? place := by
  unfold Workshop.afterAttempt Workshop.afterRun
  cases hdrawn : shop.drawings.headD none with
  | none => rfl
  | some bytes => exact FileTree.writeAt_read?_other shop.tree bytes h

theorem textAt_afterAttempt (command : List Text) (shop : Workshop) :
    (shop.afterAttempt scratch command).textAt scratch.diagram =
      shop.textAt scratch.diagram := by
  unfold Workshop.textAt
  rw [read?_afterAttempt scratch command shop _ scratch.diagram_ne_drawing]

theorem textAt_write (shop : Workshop) (place : Place) (t : Text) :
    (shop.write place (Encoding.encodeUtf8 t)).textAt place = t := by
  unfold Workshop.textAt Workshop.write
  rw [FileTree.writeAt_read?]
  exact Encoding.decodeUtf8Lossy_encodeUtf8 t

/-- What a review reports has been done in a workshop. -/
structure Records (review : Review) (before after : Workshop) : Prop where
  calls : after.calls = before.calls ++ review.calls
  runs : after.runs = review.unused
  notices : after.notices = before.notices ++ review.notices

theorem records_nothing {review : Review} {before after : Workshop} (hcalls : review.calls = [])
    (hruns : review.unused = before.runs) (hnotices : review.notices = [])
    (hsame : after = { before with tree := after.tree }) : Records review before after where
  calls := by rw [hcalls, List.append_nil, hsame]
  runs := by rw [hruns, hsame]
  notices := by rw [hnotices, List.append_nil, hsame]

/-- The attempts on a diagram come to what `tryCommands` says; no file but the drawing is changed.
By induction on the commands. -/
theorem attempts_run {diagram : Text} (commands : List (List Text)) (shop : Workshop)
    (hdiagram : shop.textAt scratch.diagram = diagram) :
    ∃ after, (attempts scratch commands).run shop =
        ended (tryCommands diagram commands shop.runs).outcome after ∧
      Records (tryCommands diagram commands shop.runs) shop after ∧
      ∀ place, place ≠ scratch.drawing → after.tree.read? place = shop.tree.read? place := by
  induction commands generalizing shop with
  | nil =>
      refine ⟨_, rfl, ⟨(List.append_nil shop.calls).symm, rfl, rfl⟩, fun _ _ => rfl⟩
  | cons command commands ih =>
      have hframe := read?_afterAttempt scratch command shop
      have hcalls : (shop.afterAttempt scratch command).calls =
          shop.calls ++ [callOf diagram command] := by
        rw [← hdiagram]
        rfl
      have hnotices := (List.append_nil shop.notices).symm
      rw [attempts, EStateM.run_bind, attempt_run, tryCommands, ← endOf_zero]
      cases (endOf shop.runs 0).finding with
      | error fault => exact ⟨_, rfl, ⟨hcalls, rfl, hnotices⟩, hframe⟩
      | ok finding =>
          cases finding with
          | accepted => exact ⟨_, rfl, ⟨hcalls, rfl, hnotices⟩, hframe⟩
          | refused message => exact ⟨_, rfl, ⟨hcalls, rfl, hnotices⟩, hframe⟩
          | unavailable =>
              obtain ⟨after, hrun, hrecords, hlater⟩ :=
                ih (shop.afterAttempt scratch command)
                  ((textAt_afterAttempt scratch command shop).trans hdiagram)
              refine ⟨after, hrun, ⟨?_, hrecords.runs, hrecords.notices⟩, fun place hplace => ?_⟩
              · rw [hrecords.calls, hcalls, List.append_assoc]
                rfl
              · rw [hlater place hplace, hframe place hplace]

/-- What is done at the end is done however the rest ends. -/
theorem run_tryFinally {α : Type} {trial : Trial α} {outcome : Except ReviewFault α}
    {shop after : Workshop} (h : trial.run shop = ended outcome after)
    (change : Workshop → Workshop) :
    (tryFinally trial (modify change : Trial PUnit)).run shop = ended outcome (change after) := by
  have htrial : trial shop = ended outcome after := h
  show (Prod.fst <$> tryFinally' trial fun _ => (modify change : Trial PUnit)).run shop = _
  rw [map_eq_pure_bind, EStateM.run_bind]
  unfold EStateM.run tryFinally' EStateM.instMonadFinally
  dsimp only
  rw [htrial]
  cases outcome with
  | ok a => rfl
  | error fault => rfl

/-- A text that can be written stands in the file for the tool. -/
theorem writeDiagram_ofText (t : Text) (shop : Workshop) :
    ∃ after, (writeDiagram scratch (.ofText t)).run shop = .ok ⟨⟩ after ∧
      after = { shop with tree := after.tree } ∧ after.textAt scratch.diagram = t ∧
      ∀ place, place ≠ scratch.diagram → after.tree.read? place = shop.tree.read? place := by
  refine ⟨(shop.write scratch.diagram []).write scratch.diagram (Encoding.encodeUtf8 t), ?_, rfl,
    textAt_write _ scratch.diagram t, fun place hplace => ?_⟩
  · unfold writeDiagram Encoding.writeUtf8
    rw [Encoding.wholeText_ofText, EStateM.run_bind, EStateM.run_modify]
    rfl
  · exact (FileTree.writeAt_read?_other _ _ hplace).trans
      (FileTree.writeAt_read?_other shop.tree _ hplace)

/-- The file for a raw text that cannot be written is left empty. -/
theorem writeDiagram_of_error {s : RawText} {fault : Encoding.HalfFault}
    (h : Encoding.wholeText s = .error fault) (shop : Workshop) :
    (writeDiagram scratch s).run shop =
      .error (.unwritable fault) (shop.write scratch.diagram []) := by
  unfold writeDiagram Encoding.writeUtf8
  rw [h, EStateM.run_bind, EStateM.run_modify]
  rfl

/-- The scratch files are gone after a check of a text that can be written, and no other file is
changed. -/
theorem reviewByTool_run {t : RawText} {diagram : Text} (hbare : bare t = .ofText diagram)
    (shop : Workshop) :
    ∃ after, (reviewByTool scratch t).run shop =
        ended (tryCommands diagram toolCommands shop.runs).outcome after ∧
      Records (tryCommands diagram toolCommands shop.runs) shop after ∧
      (∀ place ∈ scratch.places, after.tree.read? place = none) ∧
      ∀ place ∉ scratch.places, after.tree.read? place = shop.tree.read? place := by
  obtain ⟨written, hwrite, hsame, htext, hfiles⟩ := writeDiagram_ofText scratch diagram shop
  obtain ⟨after, hrun, hrecords, hframe⟩ := attempts_run scratch toolCommands written htext
  have hruns : written.runs = shop.runs := by rw [hsame]
  have hcalls : written.calls = shop.calls := by rw [hsame]
  have hnotices : written.notices = shop.notices := by rw [hsame]
  rw [hruns] at hrun hrecords
  refine ⟨after.clear scratch, ?_,
    ⟨by rw [← hcalls]; exact hrecords.calls, hrecords.runs,
      by rw [← hnotices]; exact hrecords.notices⟩, ?_, ?_⟩
  · unfold reviewByTool
    rw [hbare, EStateM.run_bind, hwrite]
    exact run_tryFinally hrun _
  · intro place hplace
    show ((after.tree.removeAt scratch.diagram).removeAt scratch.drawing).read? place = none
    by_cases hdrawing : place = scratch.drawing
    · rw [hdrawing, FileTree.removeAt_read?]
    · have hdiagram : place = scratch.diagram :=
        (List.mem_pair.mp hplace).resolve_right hdrawing
      rw [FileTree.removeAt_read?_other _ hdrawing, hdiagram, FileTree.removeAt_read?]
  · intro place hplace
    have hother : place ≠ scratch.diagram ∧ place ≠ scratch.drawing :=
      not_or.mp fun h => hplace (List.mem_pair.mpr h)
    show ((after.tree.removeAt scratch.diagram).removeAt scratch.drawing).read? place = _
    rw [FileTree.removeAt_read?_other _ hother.2, FileTree.removeAt_read?_other _ hother.1,
      hframe place hother.2]
    exact hfiles place hother.1

/-- A text that cannot be written is not checked, and the empty file for it stays. -/
theorem reviewByTool_of_error {t : RawText} {fault : Encoding.HalfFault}
    (h : Encoding.wholeText (bare t) = .error fault) (shop : Workshop) :
    (reviewByTool scratch t).run shop =
      .error (.unwritable fault) (shop.write scratch.diagram []) := by
  unfold reviewByTool
  rw [EStateM.run_bind, writeDiagram_of_error scratch h]

end Attempts

/-! ## Checks -/

/-- The command of the tool that is installed. -/
def installed : List Text := ["mmdc".toList]

/-- The command of the tool that a package runner finds. -/
def packaged : List Text := ["npx".toList, "--no-install".toList, "mmdc".toList]

/-- The tool is asked for, and the text has no fault that would keep it from the tool. -/
def Asked (t : RawText) (useTool : Bool) : Prop := useTool = true ∧ check t.filled = none

/-- What a check of a text does to a workshop, and what it finds. -/
structure Reviewed (scratch : ScratchFiles) (t : RawText) (useTool : Bool)
    (before after : Workshop) (review : Review) : Prop where
  /-- Nothing is run, and no file made, if the tool is not asked for or the text has a fault. -/
  idle : ¬ Asked t useTool → after = before
  /-- The installed tool is run alone if that run is of use. -/
  once : ∀ diagram, Asked t useTool → bare t = .ofText diagram →
    ¬ Unavailable (endOf before.runs 0) →
      after.calls = before.calls ++ [callOf diagram installed]
  /-- The other one is run too if it is not. -/
  twice : ∀ diagram, Asked t useTool → bare t = .ofText diagram →
    Unavailable (endOf before.runs 0) →
      after.calls = before.calls ++ [callOf diagram installed, callOf diagram packaged]
  /-- Only a fault of the text, or a failure of the first run of use, makes it invalid. -/
  invalid_iff : review.IsInvalid ↔ check t.filled ≠ none ∨
    (Asked t useTool ∧ (bare t).isWhole = true ∧ Decides Fails 2 before.runs)
  /-- It breaks off if the text has halves, and cannot be written, or the first run of use does. -/
  broken_iff : review.IsBroken ↔
    Asked t useTool ∧ ((bare t).isWhole = false ∨ Decides Breaks 2 before.runs)
  gone : Asked t useTool → (bare t).isWhole = true → ∀ place ∈ scratch.places,
    after.tree.read? place = none
  /-- Nothing is run on a text that cannot be written, and the empty file for it stays. -/
  stays : Asked t useTool → (bare t).isWhole = false →
    after = before.write scratch.diagram []
  others : ∀ place ∉ scratch.places, after.tree.read? place = before.tree.read? place

theorem Tried.calls_once {diagram : Text} {command next : List Text} {runs : List ToolRun}
    {review : Review} (h : Tried diagram [command, next] runs review)
    (huse : ¬ Unavailable (endOf runs 0)) : review.calls = [callOf diagram command] := by
  obtain ⟨n, hcalls, hn⟩ := h.calls
  have hfirst : 0 < n := (hn 0 Nat.two_pos).mpr fun j hj => absurd hj (Nat.not_lt_zero j)
  have hsecond : ¬ 1 < n := fun hlt => huse ((hn 1 Nat.one_lt_two).mp hlt 0 Nat.one_pos)
  have hone : n = 1 := by omega
  rw [hcalls, hone]
  rfl

theorem Tried.calls_twice {diagram : Text} {command next : List Text} {runs : List ToolRun}
    {review : Review} (h : Tried diagram [command, next] runs review)
    (huseless : Unavailable (endOf runs 0)) :
    review.calls = [callOf diagram command, callOf diagram next] := by
  obtain ⟨n, hcalls, hn⟩ := h.calls
  have hsecond : 1 < n := by
    refine (hn 1 Nat.one_lt_two).mpr fun j hj => ?_
    obtain rfl : j = 0 := by omega
    exact huseless
  rw [hcalls, List.take_of_length_le (by exact hsecond)]
  rfl

/-- Without a run of the tool, only the text decides. -/
theorem reviewed_idle (scratch : ScratchFiles) {t : RawText} {useTool : Bool} {review : Review}
    (shop : Workshop) (hidle : ¬ Asked t useTool)
    (hinvalid : review.IsInvalid ↔ check t.filled ≠ none) (hbroken : ¬ review.IsBroken) :
    Reviewed scratch t useTool shop shop review where
  idle := fun _ => rfl
  once := fun _ hasked => absurd hasked hidle
  twice := fun _ hasked => absurd hasked hidle
  invalid_iff := hinvalid.trans ⟨.inl, fun h => h.elim id fun hrun => absurd hrun.1 hidle⟩
  broken_iff := iff_of_false hbroken fun h => hidle h.1
  gone := fun hasked => absurd hasked hidle
  stays := fun hasked => absurd hasked hidle
  others := fun _ _ => rfl

section Tool

variable {scratch : ScratchFiles} {t : RawText} {shop : Workshop}

/-- With the tool, its runs decide on a text without faults. -/
theorem reviewed_byTool {after : Workshop} {diagram : Text} {review : Review}
    (hcheck : check t.filled = none) (hbare : bare t = .ofText diagram)
    (htried : Tried diagram [installed, packaged] shop.runs review)
    (hrecords : Records review shop after)
    (hgone : ∀ place ∈ scratch.places, after.tree.read? place = none)
    (hothers : ∀ place ∉ scratch.places, after.tree.read? place = shop.tree.read? place) :
    Reviewed scratch t true shop after review := by
  have hasked : Asked t true := ⟨rfl, hcheck⟩
  have hwhole : (bare t).isWhole = true := by rw [hbare, RawText.isWhole_ofText]
  have hsame : ∀ other, bare t = .ofText other → other = diagram :=
    fun other hother => RawText.ofText_injective (hother.symm.trans hbare)
  constructor
  case idle => exact fun hidle => absurd hasked hidle
  case once =>
    intro other _ hother huse
    rw [hsame other hother, hrecords.calls, htried.calls_once huse]
  case twice =>
    intro other _ hother huseless
    rw [hsame other hother, hrecords.calls, htried.calls_twice huseless]
  case invalid_iff =>
    rw [htried.invalid_iff]
    exact ⟨fun h => .inr ⟨hasked, hwhole, h⟩, fun h => (h.resolve_left fun hne => hne hcheck).2.2⟩
  case broken_iff =>
    rw [htried.broken_iff, hwhole]
    exact ⟨fun h => ⟨hasked, .inr h⟩, fun h => h.2.resolve_left Bool.noConfusion⟩
  case gone => exact fun _ _ => hgone
  case stays =>
    intro _ hhalves
    rw [hwhole] at hhalves
    cases hhalves
  case others => exact hothers

/-- A text that cannot be written is left to nobody. -/
theorem reviewed_unwritable {review : Review} (hcheck : check t.filled = none)
    {fault : Encoding.HalfFault} (hhalves : Encoding.wholeText (bare t) = .error fault)
    (houtcome : review.outcome = .error (.unwritable fault)) :
    Reviewed scratch t true shop (shop.write scratch.diagram []) review := by
  have hasked : Asked t true := ⟨rfl, hcheck⟩
  have hbroken : (bare t).isWhole = false :=
    Encoding.exists_wholeText_eq_error_iff.mp ⟨fault, hhalves⟩
  have hno : ∀ diagram, bare t ≠ .ofText diagram := by
    intro diagram hbare
    rw [hbare, RawText.isWhole_ofText] at hbroken
    cases hbroken
  constructor
  case idle => exact fun hidle => absurd hasked hidle
  case once => exact fun diagram _ hbare => absurd hbare (hno diagram)
  case twice => exact fun diagram _ hbare => absurd hbare (hno diagram)
  case invalid_iff =>
    refine iff_of_false ?_ ?_
    · rintro ⟨message, hinvalid⟩
      rw [houtcome] at hinvalid
      cases hinvalid
    · rintro (hne | ⟨-, hwhole, -⟩)
      · exact hne hcheck
      · rw [hbroken] at hwhole
        cases hwhole
  case broken_iff => exact iff_of_true ⟨_, houtcome⟩ ⟨hasked, .inl hbroken⟩
  case gone =>
    intro _ hwhole
    rw [hbroken] at hwhole
    cases hwhole
  case stays => exact fun _ _ => rfl
  case others =>
    intro place hplace
    have hother : place ≠ scratch.diagram :=
      fun h => hplace (List.mem_pair.mpr (.inl h))
    exact FileTree.writeAt_read?_other shop.tree [] hother

end Tool

theorem faultOf?_eq_none_iff {t : RawText} : faultOf? t = none ↔ check t.filled = none := by
  rw [faultOf?, Option.map_eq_none_iff]

/-- A check comes to what `review` says. What becomes of the files and the runs of the tool is told
by the text and the ends of the runs. -/
theorem reviewOn_spec (scratch : ScratchFiles) (t : RawText) (useTool : Bool) (shop : Workshop) :
    ∃ after, (reviewOn scratch t useTool).run shop =
        ended (review t useTool shop.runs).outcome after ∧
      Records (review t useTool shop.runs) shop after ∧
      Reviewed scratch t useTool shop after (review t useTool shop.runs) := by
  unfold reviewOn review
  cases hfault : faultOf? t with
  | some message =>
      have hcheck : check t.filled ≠ none := by
        rw [Ne, ← faultOf?_eq_none_iff, hfault]
        exact Option.some_ne_none message
      exact ⟨shop, rfl, records_nothing rfl rfl rfl rfl,
        reviewed_idle scratch shop (fun hasked => hcheck hasked.2) (iff_of_true ⟨_, rfl⟩ hcheck)
          nofun⟩
  | none =>
      have hcheck := faultOf?_eq_none_iff.mp hfault
      cases useTool with
      | false =>
          exact ⟨shop, rfl, records_nothing rfl rfl rfl rfl,
            reviewed_idle scratch shop (fun hasked => Bool.noConfusion hasked.1)
              (iff_of_false nofun fun hne => hne hcheck) nofun⟩
      | true =>
          dsimp only
          rw [if_pos rfl, if_pos rfl]
          cases hbare : Encoding.wholeText (bare t) with
          | error fault =>
              exact ⟨_, reviewByTool_of_error scratch hbare shop, records_nothing rfl rfl rfl rfl,
                reviewed_unwritable hcheck hbare rfl⟩
          | ok diagram =>
              rw [Encoding.wholeText_eq_ok_iff] at hbare
              have htried := tried_tryCommands diagram toolCommands shop.runs
              obtain ⟨after, hrun, hrecords, hgone, hothers⟩ :=
                reviewByTool_run scratch hbare shop
              exact ⟨after, hrun, hrecords,
                reviewed_byTool hcheck hbare htried hrecords hgone hothers⟩

/-- The review in a workshop where nothing has been run yet is that of `review`. -/
theorem reviewIn_eq (scratch : ScratchFiles) (t : RawText) (useTool : Bool) (shop : Workshop)
    (hcalls : shop.calls = []) (hnotices : shop.notices = []) :
    (reviewIn scratch t useTool shop).1 = review t useTool shop.runs := by
  obtain ⟨after, hrun, hrecords, -⟩ := reviewOn_spec scratch t useTool shop
  have hbefore := hrecords.calls
  have hsaid := hrecords.notices
  rw [hcalls, List.nil_append] at hbefore
  rw [hnotices, List.nil_append] at hsaid
  unfold reviewIn
  rw [hrun]
  cases houtcome : (review t useTool shop.runs).outcome with
  | ok opinion => simp only [ended, hbefore, hsaid, hrecords.runs, ← houtcome]
  | error fault => simp only [ended, hbefore, hsaid, hrecords.runs, ← houtcome]

/-- The files after a review are those after the check. -/
theorem exists_reviewIn (scratch : ScratchFiles) (t : RawText) (useTool : Bool) (shop : Workshop) :
    ∃ after, Reviewed scratch t useTool shop after (review t useTool shop.runs) ∧
      (reviewIn scratch t useTool shop).2 = after.tree := by
  obtain ⟨after, hrun, -, hreviewed⟩ := reviewOn_spec scratch t useTool shop
  refine ⟨after, hreviewed, ?_⟩
  unfold reviewIn
  rw [hrun]
  cases (review t useTool shop.runs).outcome with
  | ok opinion => rfl
  | error fault => rfl

/-- A check whose scratch files are new changes a file only where it breaks off over a text that has
no bytes: what has changed is the file that the text was to be written to. -/
theorem reviewIn_changed (scratch : ScratchFiles) (t : RawText) (useTool : Bool) (shop : Workshop)
    (hnew : ∀ place ∈ scratch.places, shop.tree.read? place = none) {place : Place}
    (h : (reviewIn scratch t useTool shop).2.read? place ≠ shop.tree.read? place) :
    (bare t).isWhole = false ∧ place = scratch.diagram ∧
      ∃ fault, (reviewIn scratch t useTool shop).1.outcome = .error (.unwritable fault) := by
  obtain ⟨after, hreviewed, hfiles⟩ := exists_reviewIn scratch t useTool shop
  rw [hfiles] at h
  have hasked : Asked t useTool := by
    by_contra hidle
    rw [hreviewed.idle hidle] at h
    exact h rfl
  -- A check of a text that can be written leaves no scratch file, and there was none before.
  have hbroken : (bare t).isWhole = false := by
    by_contra hwhole
    rw [Bool.not_eq_false] at hwhole
    by_cases hplace : place ∈ scratch.places
    · exact h (by rw [hreviewed.gone hasked hwhole place hplace, hnew place hplace])
    · exact h (hreviewed.others place hplace)
  have hdiagram : place = scratch.diagram := by
    by_contra hother
    rw [hreviewed.stays hasked hbroken] at h
    exact h (FileTree.writeAt_read?_other _ _ hother)
  obtain ⟨fault, hfault⟩ := Encoding.exists_wholeText_eq_error_iff.mpr hbroken
  refine ⟨hbroken, hdiagram, fault, ?_⟩
  obtain ⟨rfl, hcheck⟩ := hasked
  unfold reviewIn reviewOn
  rw [faultOf?_eq_none_iff.mpr hcheck]
  dsimp only
  rw [if_pos rfl, reviewByTool_of_error scratch hfault]

theorem bare_ofText (t : Text) : bare (.ofText t) = .ofText (stripFences t) :=
  RawText.through_ofText _ t

/-- Whatever the runs of the tool come to, a check ends as `review` says. It has run what is told
there, and left no scratch file, unless the text could not be written; and every text without halves
can. -/
theorem reviewOn_reviewed (scratch : ScratchFiles) (t : RawText) (useTool : Bool)
    (shop : Workshop) :
    (∃ after, (reviewOn scratch t useTool).run shop =
        ended (review t useTool shop.runs).outcome after ∧
      Records (review t useTool shop.runs) shop after ∧
      Reviewed scratch t useTool shop after (review t useTool shop.runs)) ∧
    ∀ u, t = .ofText u → bare t = .ofText (stripFences u) := by
  refine ⟨reviewOn_spec scratch t useTool shop, ?_⟩
  rintro u rfl
  exact bare_ofText u

/-- A flowchart with half of a pair in a label. -/
def halfChart : RawText :=
  RawText.ofText "flowchart TD\n a[\"".toList ++
    .half ⟨0xd800, by decide⟩ :: RawText.ofText "\"]".toList

/-- The check of it breaks off, and an empty file stays. -/
theorem reviewOn_halfChart :
    (reviewOn ⟨[], "scratch".toList⟩ halfChart true).run
        { tree := {}, runs := [.finished 0 [] []] } =
      .error (.unwritable ⟨17, ⟨0xd800, by decide⟩, []⟩)
        { tree := { files := [(["scratch.mmd".toList], [])] }, runs := [.finished 0 [] []] } := by
  rfl

end Flowchart.Mermaid
