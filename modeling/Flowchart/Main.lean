import Flowchart.Command.Run
import Flowchart.Settings.EnvFile

/-!
# The program

The program looks at the files that its call can reach, runs the call on what it has seen, and
makes the folders and writes the files that the run has added or changed. It has no syntax tool at
hand, so a flowchart is checked for the faults of its structure only.
-/

set_option autoImplicit false

namespace Flowchart.Program

open Text

/-! ## What a call can reach -/

/-- The places on the way from a place along names. -/
def way : Place → List Text → List Place
  | place, [] => [place]
  | place, name :: names =>
      place :: way (if name = WrittenPath.around then place.dropLast else place ++ [name]) names

/-- The places on the way along a path from a folder. -/
def wayAlong (folder : Place) (t : Text) : List Place :=
  let path := WrittenPath.ofText t
  way (if path.root.isEmpty then folder else []) path.names

/-- The places that a call can reach from a folder: those of its settings files, its input and
its output, each behind the folders around it. -/
def reach (folder : Place) (call : Call) : List Place :=
  let around := way [] folder
  around ++ around.map (fun place => place ++ [Settings.fileName]) ++
    (call.input.toList ++ call.task.output.toList).flatMap (wayAlong folder)

/-! ## Input and output -/

def systemText (t : Text) : String := String.ofList t

def systemPath (place : Place) : String := systemText ('/' :: join ['/'] place)

/-- Adds what is at a place to a tree, if the folder around it is there. -/
def look (tree : FileTree) (place : Place) : IO FileTree := do
  if tree.hasEntry place || !tree.isFolder place.dropLast then return tree
  try
    let bytes ← IO.FS.readBinFile (systemPath place)
    return tree.writeAt place bytes.toList
  catch
    | .inappropriateType _ _ _ => return { tree with folders := tree.folders ++ [place] }
    | _ => return tree

/-- The variables with these names that are set. -/
def readVariables (names : List Text) : IO Variables := do
  let entries ← names.eraseDups.mapM fun name => do
    return (← IO.getEnv (systemText name)).map fun text => (name, text.toList)
  return entries.filterMap id

/-- Reads a stream to its end. -/
partial def readAll (input : IO.FS.Stream) (before : ByteArray) : IO ByteArray := do
  let bytes ← input.read 65536
  if bytes.isEmpty then return before
  readAll input (before ++ bytes)

def surroundings (call : Call) : IO Surroundings := do
  let folder := (WrittenPath.ofText (toString (← IO.currentDir)).toList).names
  let tree ← (reach folder call).foldlM look { whole := true }
  let vars ← readVariables (EnvFile.namesFor tree folder)
  let input ← if call.stdin then readAll (← IO.getStdin) .empty else pure .empty
  return { tree, folder, vars, input := input.toList, loader := EnvFile.loader }

/-- Makes the folders of `new` that are not in `old`, and writes the files that are not in `old` as
they are. -/
def writeChanges (old new : FileTree) : IO Unit := do
  for place in new.folders do
    if !old.isFolder place then IO.FS.createDirAll (systemPath place)
  for (place, bytes) in new.files do
    if old.read? place != some bytes then
      IO.FS.createDirAll (systemPath place.dropLast)
      IO.FS.writeBinFile (systemPath place) (ByteArray.mk bytes.toArray)

def report (outcome : Outcome) : IO UInt32 := do
  IO.eprint (systemText outcome.notices.filled)
  IO.print (systemText outcome.printed.filled)
  match outcome.ending with
  | .exit code => return code.toUInt32
  | .broken breakdown =>
      IO.eprintln (systemText breakdown.message)
      return 1

end Flowchart.Program

open Flowchart Program in
def main (arguments : List String) : IO UInt32 := do
  let arguments := arguments.map String.toList
  let start ←
    match Call.ofArguments arguments with
    | .ok call => surroundings call
    | .error _ => pure { loader := EnvFile.loader }
  let outcome := run start arguments
  writeChanges start.tree outcome.tree
  report outcome
