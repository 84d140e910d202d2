import Flowchart.Encoding.Gap
import Flowchart.Files.Tree
import Flowchart.Settings.Basic

/-!
# Loading the settings

The settings are those of the variables, once a settings file is loaded into them: one that is
named, or else the nearest one. That is looked for in a folder and then in the folders around it,
the innermost first. A folder that bears the name of a settings file ends the search, and nothing is
read from it.

How a settings file is read, and which variables are set then, is the matter of an `EnvLoader`.
-/

set_option autoImplicit false

namespace Flowchart

open Text

/-- A name that a settings file binds, with its text unless the name stands alone. -/
abbrev Binding := Text × Option Text

/-- The library that loads settings files. -/
structure EnvLoader where
  /-- The bindings of a file, the first one first; those of nothing where there is no file. -/
  bindings : Option Bytes → Except Encoding.Gap (List Binding)
  /-- The variables that are set for the bindings of a file, in order, each with its text. What is
  mentioned in a text may depend on the variables that are set already. -/
  assignments : Variables → List Binding → List (Text × Text)

namespace Settings

def fileName : Text := ".env".toList

inductive LoadFault where
  | unreadable (gap : Encoding.Gap)
  /-- The settings file binds a name to what no variable can be set to. -/
  | unsettable (fault : VariableFault)
deriving DecidableEq, Repr

/-- What is said about settings that cannot be loaded. -/
def LoadFault.message : LoadFault → Text
  | unreadable gap => gap.message
  | unsettable fault => fault.message

/-! ## Finding the file -/

/-- The nearest settings file of a folder, whose names stand the innermost first. -/
def nearestFrom (tree : FileTree) : (reversed : List Text) → Option WrittenPath
  | [] =>
      let path : WrittenPath := ⟨[], [fileName]⟩
      if tree.pathExists [] path then some path else none
  | name :: around =>
      let path : WrittenPath := ⟨[], (fileName :: name :: around).reverse⟩
      if tree.pathExists [] path then some path else nearestFrom tree around

/-- The nearest settings file of the folder that names lead to from the root. The folder need not
be there. -/
def nearest (tree : FileTree) (names : List Text) : Option WrittenPath :=
  nearestFrom tree names.reverse

/-! ## Loading it -/

/-- Sets variables in order, up to the first one that cannot be set. -/
def assignAll (vars : Variables) : List (Text × Text) → Loaded VariableFault
  | [] => { vars }
  | (name, text) :: more =>
      match vars.assign name text with
      | .ok vars => assignAll vars more
      | .error fault => { vars, fault := some fault }

section

variable (loader : EnvLoader)

/-- Loads the settings file that a path leads to from the root; where there is nothing, nothing. -/
def loadFile (tree : FileTree) (path : WrittenPath) (vars : Variables) : Loaded LoadFault :=
  if tree.pathExists [] path then
    match loader.bindings (tree.readPath [] path).toOption with
    | .error gap => { vars, fault := some (.unreadable gap) }
    | .ok bs =>
        let loaded := assignAll vars (loader.assignments vars bs)
        { vars := loaded.vars, fault := loaded.fault.map .unsettable }
  else { vars }

/-- Loads the settings file that is named, else the nearest one of a folder, if there is one. -/
def loadVariables (tree : FileTree) (folder : Place) (named : Option WrittenPath)
    (vars : Variables) : Loaded LoadFault :=
  match named.or (nearest tree folder) with
  | some path => loadFile loader tree path vars
  | none => { vars }

/-- The settings that the variables give once a settings file is loaded: the one that is named, else
the nearest one of a folder. -/
def loadSettings (tree : FileTree) (folder : Place) (named : Option WrittenPath)
    (vars : Variables) : Except LoadFault Settings :=
  (loadVariables loader tree folder named vars).map ofVariables

def load (tree : FileTree) (folder : Place) (vars : Variables) : Except LoadFault Settings :=
  loadSettings loader tree folder none vars

end

end Settings

end Flowchart
