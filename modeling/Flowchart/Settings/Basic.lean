import Flowchart.Direction
import Flowchart.Settings.Integer

/-!
# Settings

The settings come from variables, each a name with a text. A variable that is not set, or whose
text makes no sense, leaves its setting at the default; so there are always settings, and they
are always in range.
-/

set_option autoImplicit false

namespace Flowchart

open Text

abbrev Variables := List (Text × Text)

inductive VariableFault where
  /-- The name or the text holds the null character. -/
  | nullCharacter
  /-- The name holds an equals sign. -/
  | badName
  | noName
deriving DecidableEq, Repr

/-- What is said about a variable that cannot be set. -/
def VariableFault.message : VariableFault → Text
  | nullCharacter => "embedded null byte".toList
  | badName => "illegal environment variable name".toList
  | noName => "[Errno 22] Invalid argument".toList

namespace Variables

/-- The text of a variable, if it is set. -/
def get? (vars : Variables) (name : Text) : Option Text :=
  (vars.find? fun entry => entry.1 == name).map (·.2)

/-- The variables with one that has the text, whether it was set before or not. -/
def put (vars : Variables) (name text : Text) : Variables :=
  (name, text) :: vars.filter fun entry => entry.1 != name

/-- Sets a variable, if it can be. -/
def assign (vars : Variables) (name text : Text) : Except VariableFault Variables :=
  if (name ++ text).contains (Char.ofNat 0) then .error .nullCharacter
  else if name.contains '=' then .error .badName
  else if name.isEmpty then .error .noName
  else .ok (vars.put name text)

end Variables

/-- Variables after something was loaded into them, and the fault that the loading has stopped at,
if it has. What was set before the fault stays set. -/
structure Loaded (Fault : Type) where
  vars : Variables
  fault : Option Fault := none
deriving DecidableEq, Repr

/-- What is made of the variables, unless the loading has stopped. -/
def Loaded.map {Fault α : Type} (loaded : Loaded Fault) (make : Variables → α) : Except Fault α :=
  match loaded.fault with
  | none => .ok (make loaded.vars)
  | some fault => .error fault

/-- The settings of the command line and the service. -/
structure Settings where
  direction : Direction := .td
  /-- How many characters of a statement its label shows. -/
  labelLimit : Nat := 25
  /-- How many characters of source the service takes. -/
  inputLimit : Nat := 200000
  /-- Whether diagrams are handed to the syntax tool. -/
  useTool : Bool := false
deriving DecidableEq, Repr

namespace Settings

/-! ## The variables -/

def directionName : Text := "FLOWGRAPH_DIRECTION".toList

def labelLimitName : Text := "FLOWGRAPH_LABEL_MAX_CHARS".toList

def inputLimitName : Text := "FLOWGRAPH_MAX_INPUT_CHARS".toList

/-- The variable that asks for the syntax tool. -/
def useToolName : Text := "FLOWGRAPH_VALIDATE_WITH_MMDC".toList

/-! ## Reading -/

/-- The positive integer that a text writes; the default when it writes none. -/
def positiveOr (default : Nat) (raw : Option Text) : Nat :=
  match raw.bind readInteger? with
  | some n => if 0 < n then n.toNat else default
  | none => default

/-- The direction that a text names, in letters of either case. -/
def directionOr (default : Direction) (raw : Option Text) : Direction :=
  (raw.bind fun t => Direction.ofName? ((strip t).map Char.toUpper)).getD default

/-- Whether a text says yes, in letters of either case. -/
def saysYes (t : Text) : Bool :=
  ["1".toList, "true".toList, "yes".toList, "on".toList].contains ((strip t).map Char.toLower)

def ofVariables (vars : Variables) : Settings where
  direction := directionOr .td (vars.get? directionName)
  labelLimit := positiveOr 25 (vars.get? labelLimitName)
  inputLimit := positiveOr 200000 (vars.get? inputLimitName)
  useTool := (vars.get? useToolName).any saysYes

/-! ## Writing -/

def toVariables (s : Settings) : Variables :=
  [(directionName, s.direction.name), (labelLimitName, decimal s.labelLimit),
   (inputLimitName, decimal s.inputLimit),
   (useToolName, if s.useTool then "true".toList else [])]

end Settings

end Flowchart
