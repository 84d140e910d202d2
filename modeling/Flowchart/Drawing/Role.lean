import Flowchart.Drawing.Label
import Flowchart.Graph.Basic

/-!
# Nodes by their role

Every node of a drawing plays a part in it, its role. The role fixes the outline of the node and
the word that its identifier begins with; the number of the node, counted in the order in which
nodes are added, makes the rest of the identifier.

`nodeId_inj` says that an identifier gives back the role and the number.
-/

set_option autoImplicit false

namespace Flowchart

/-- The part that a node plays in a drawing. -/
inductive Role where
  | start
  | function
  | conditional
  | loop
  | log
  | call
  | step
  | result
  | join
deriving DecidableEq, Repr

namespace Role

/-- The word that identifiers of nodes with this role begin with. -/
def stem : Role → Text
  | start => "start".toList
  | function => "fn".toList
  | conditional => "if".toList
  | loop => "loop".toList
  | log => "log".toList
  | call => "call".toList
  | step => "stmt".toList
  | result => "ret".toList
  | join => "join".toList

def shape : Role → Shape
  | start => .round
  | function => .round
  | conditional => .diamond
  | loop => .diamond
  | _ => .rect

/-- The role of a plain statement. -/
def ofStepKind : StepKind → Role
  | .log => log
  | .call => call
  | .other => step

end Role

/-- The identifier of the `number`th node, with its role. -/
def nodeId (role : Role) (number : Nat) : Text := role.stem ++ Text.decimal number

/-- The `number`th node. -/
def nodeOf (role : Role) (number : Nat) (label : Text) : Node :=
  ⟨.text (nodeId role number), .text label, .text role.shape.name⟩

/-! ## Identifiers give back role and number -/

theorem decimal_inj {m n : Nat} (h : Text.decimal m = Text.decimal n) : m = n := by
  have hm : Nat.ofDigitChars 10 (Text.decimal m) 0 = m := Nat.ofDigitChars_ten_toDigits
  have hn : Nat.ofDigitChars 10 (Text.decimal n) 0 = n := Nat.ofDigitChars_ten_toDigits
  rw [← hm, h, hn]

/-- No word that identifiers begin with holds a digit. -/
theorem Role.not_isDigit_of_mem_stem {role : Role} {c : Char} (h : c ∈ role.stem) :
    c.isDigit = false := by
  have hstem : role.stem.all (fun c => !c.isDigit) = true := by cases role <;> decide
  have hc : (!c.isDigit) = true := List.all_eq_true.mp hstem c h
  rwa [Bool.not_eq_true'] at hc

theorem Role.stem_inj {r s : Role} (h : r.stem = s.stem) : r = s := by
  revert h
  cases r <;> cases s <;> decide

/-- Splitting an identifier at its first digit gives the word and the decimal back. -/
theorem takeWhile_nodeId (role : Role) (number : Nat) :
    (nodeId role number).takeWhile (fun c => !c.isDigit) = role.stem ∧
      (nodeId role number).dropWhile (fun c => !c.isDigit) = Text.decimal number := by
  refine Text.takeWhile_dropWhile_iff.mpr ⟨rfl, fun c hc => ?_, fun c hc => ?_⟩
  · rw [Role.not_isDigit_of_mem_stem hc, Bool.not_false]
  · rw [Text.isDigit_of_mem_decimal (List.mem_of_mem_head? hc), Bool.not_true]

/-- An identifier gives back the role and the number of its node. -/
theorem nodeId_inj {r s : Role} {m n : Nat} (h : nodeId r m = nodeId s n) : r = s ∧ m = n := by
  obtain ⟨hr, hm⟩ := takeWhile_nodeId r m
  obtain ⟨hs, hn⟩ := takeWhile_nodeId s n
  rw [h] at hr hm
  exact ⟨Role.stem_inj (hr.symm.trans hs), decimal_inj (hm.symm.trans hn)⟩

end Flowchart
