import Flowchart.Encoding.Raw
import Flowchart.Files.Path
import Flowchart.Text.Lines

/-!
# A tree of files

The files that a run can see, as a value: each file under the names of the folders around it and
its own, with its bytes, and the folders. Running gives a new tree, so what a run does to the
files can be read off the two.

`writeAt_read?` says that what is written is read back, `removeAt_read?` that what is removed is
gone, and `writeAt_read?_other` and `removeAt_read?_other` that nothing else changes.
-/

set_option autoImplicit false

namespace Flowchart

open Text

/-- A place in a tree: the names on the way there from the root. -/
abbrev Place := List Text

structure FileTree where
  files : List (Place × Bytes) := []
  folders : List Place := []
  /-- Whether the tree is all there is. If not, a path can lead out of it. -/
  whole : Bool := false
deriving DecidableEq, Repr

inductive Obstacle where
  | missing
  /-- There is a file where a folder should be on the way. -/
  | notFolder
  /-- A name on the way, or the path, is longer than any can be. -/
  | tooLong
  /-- The path holds the null character, which no name can hold. -/
  | nullCharacter
deriving DecidableEq, Repr

/-- Why a file cannot be read or written. The path is the one that was asked for. -/
inductive FileFault where
  /-- There is a folder where a file should be. -/
  | isFolder (path : WrittenPath)
  /-- There is a file where a folder should be made. -/
  | fileExists (path : WrittenPath)
  | noWay (obstacle : Obstacle) (path : WrittenPath)
  /-- What is to be written has halves of pairs in it, which have no bytes. -/
  | unwritable (fault : Encoding.HalfFault)
deriving DecidableEq, Repr

def FileFault.message : FileFault → Text
  | isFolder path => "[Errno 21] Is a directory: ".toList ++ quoted path.text
  | fileExists path => "[Errno 17] File exists: ".toList ++ quoted path.text
  | noWay .missing path => "[Errno 2] No such file or directory: ".toList ++ quoted path.text
  | noWay .notFolder path => "[Errno 20] Not a directory: ".toList ++ quoted path.text
  | noWay .tooLong path => "[Errno 36] File name too long: ".toList ++ quoted path.text
  | noWay .nullCharacter _ => "embedded null byte".toList
  | unwritable fault => fault.message

namespace FileTree

/-! ## Looking -/

/-- The bytes of the file at a place. -/
def read? (tree : FileTree) (place : Place) : Option Bytes :=
  (tree.files.find? fun entry => entry.1 == place).map (·.2)

/-- Whether `place` lies somewhere below `folder`. -/
def isBelow (folder place : Place) : Bool :=
  folder.isPrefixOf place && folder.length < place.length

/-- Whether there is a folder at a place: the root is one, and so is what something lies in. -/
def isFolder (tree : FileTree) (place : Place) : Bool :=
  place.isEmpty || tree.folders.contains place ||
    (tree.files.map (·.1) ++ tree.folders).any (isBelow place)

/-- Whether there is a file or a folder at a place. -/
def hasEntry (tree : FileTree) (place : Place) : Bool :=
  (tree.read? place).isSome || tree.isFolder place

/-- The greatest number of bytes in a name. -/
def nameLimit : Nat := 255

/-- The greatest number of bytes in a path. -/
def pathLimit : Nat := 4095

/-- The place that names lead to, from a folder. Each name but the last must be that of a
folder; the last need not be there. -/
def walk (tree : FileTree) : Place → List Text → Except Obstacle Place
  | place, [] => .ok place
  | place, name :: names =>
      if !tree.isFolder place then
        .error (if (tree.read? place).isSome then .notFolder else .missing)
      else if nameLimit < (Encoding.encodeUtf8 name).length then .error .tooLong
      else if name = WrittenPath.around then
        if place.isEmpty && !tree.whole then .error .missing else walk tree place.dropLast names
      else walk tree (place ++ [name]) names

/-- The place that a path leads to from a folder, or from the root of all files if the path begins
with a slash. What lies outside the tree is missing. -/
def find (tree : FileTree) (folder : Place) (path : WrittenPath) : Except Obstacle Place :=
  if path.text.contains (Char.ofNat 0) then .error .nullCharacter
  else if pathLimit < (Encoding.encodeUtf8 path.text).length then .error .tooLong
  else if path.root.isEmpty then tree.walk folder path.names
  else if tree.whole then tree.walk [] path.names
  else .error .missing

/-- Whether a path leads to a file or a folder. -/
def pathExists (tree : FileTree) (folder : Place) (path : WrittenPath) : Bool :=
  match tree.find folder path with
  | .ok place => tree.hasEntry place
  | .error _ => false

/-! ## Reading and writing -/

/-- The bytes of the file that a path leads to. -/
def readPath (tree : FileTree) (folder : Place) (path : WrittenPath) : Except FileFault Bytes :=
  match tree.find folder path with
  | .error obstacle => .error (.noWay obstacle path)
  | .ok place =>
      match tree.read? place with
      | some bytes => .ok bytes
      | none =>
          .error (if tree.isFolder place then .isFolder path else .noWay .missing path)

/-- The text of bytes as a file of text is read: UTF-8 with gaps filled, and line feeds only. -/
def textOfBytes (bytes : Bytes) : Text := withLineFeeds (Encoding.decodeUtf8Lossy bytes)

/-- The tree with the file at a place holding `bytes`. -/
def writeAt (tree : FileTree) (place : Place) (bytes : Bytes) : FileTree :=
  { tree with files := (place, bytes) :: tree.files.filter fun entry => entry.1 != place }

/-- The tree without the file at a place, whether there is one or not. -/
def removeAt (tree : FileTree) (place : Place) : FileTree :=
  { tree with files := tree.files.filter fun entry => entry.1 != place }

inductive Making where
  | made (tree : FileTree)
  | stopped (obstacle : Obstacle)
  | inTheWay
deriving DecidableEq, Repr

/-- Makes the folder that a path leads to, if the folder around it is there. A folder that is
there already is left alone. -/
def makeFolder (tree : FileTree) (folder : Place) (path : WrittenPath) : Making :=
  match tree.find folder path with
  | .error obstacle => .stopped obstacle
  | .ok place =>
      if tree.isFolder place then .made tree
      else if (tree.read? place).isSome then .inTheWay
      else .made { tree with folders := tree.folders ++ [place] }

/-- A tree after something that may have stopped half-way, and the fault that it has stopped at. -/
structure Result where
  tree : FileTree
  fault : Option FileFault := none
deriving DecidableEq, Repr

/-- What comes of making a folder in a tree: the tree with the folder, or the fault of the path. -/
def Making.result (before : FileTree) (path : WrittenPath) : Making → Result
  | made tree => { tree }
  | stopped obstacle => { tree := before, fault := some (.noWay obstacle path) }
  | inTheWay => { tree := before, fault := some (.fileExists path) }

/-- Makes the folder that a path leads to, and those on the way that are missing. The names of
the path stand the last one first. Folders that are made stay, also when a later one cannot be
made. -/
def makeFolders (tree : FileTree) (folder : Place) (root : Text) :
    (reversed : List Text) → Result
  | [] => (tree.makeFolder folder ⟨root, []⟩).result tree ⟨root, []⟩
  | name :: names =>
      let path : WrittenPath := ⟨root, (name :: names).reverse⟩
      match tree.makeFolder folder path with
      | .stopped .missing =>
          match makeFolders tree folder root names with
          | ⟨tree, some fault⟩ => { tree, fault := some fault }
          | ⟨tree, none⟩ => (tree.makeFolder folder path).result tree path
      | making => making.result tree path

/-- Writes a file of text where a path leads, and makes the folders on the way. The file is emptied
before it is written, so that a text that has no bytes leaves it empty. -/
def writePath (tree : FileTree) (folder : Place) (path : WrittenPath) (s : RawText) : Result :=
  match tree.makeFolders folder path.root path.parent.names.reverse with
  | ⟨tree, some fault⟩ => { tree, fault := some fault }
  | ⟨tree, none⟩ =>
      match tree.find folder path with
      | .error obstacle => { tree, fault := some (.noWay obstacle path) }
      | .ok place =>
          if tree.isFolder place then { tree, fault := some (.isFolder path) }
          else
            match Encoding.writeUtf8 s with
            | .ok bytes => { tree := tree.writeAt place bytes }
            | .error fault => { tree := tree.writeAt place [], fault := some (.unwritable fault) }

/-- What is written at a place is read back there. -/
theorem writeAt_read? (tree : FileTree) (place : Place) (bytes : Bytes) :
    (tree.writeAt place bytes).read? place = some bytes := by
  simp [writeAt, read?]

/-- A file that is removed is gone. -/
theorem removeAt_read? (tree : FileTree) (place : Place) :
    (tree.removeAt place).read? place = none := by
  have hfind : (tree.files.filter fun entry => entry.1 != place).find?
      (fun entry => entry.1 == place) = none := by
    rw [List.find?_eq_none]
    intro entry hentry
    simpa using (List.mem_filter.mp hentry).2
  rw [read?, removeAt, hfind]
  rfl

/-- The files at other places are left when one is removed. -/
theorem removeAt_read?_other (tree : FileTree) {place other : Place} (h : other ≠ place) :
    (tree.removeAt place).read? other = tree.read? other := by
  have hfind : ∀ files : List (Place × Bytes),
      (files.filter fun entry => entry.1 != place).find? (fun entry => entry.1 == other) =
        files.find? fun entry => entry.1 == other := by
    intro files
    induction files with
    | nil => rfl
    | cons entry files ih =>
        by_cases hp : entry.1 = place
        · have h1 : (entry.1 != place) = false := by simp [hp]
          have h2 : (entry.1 == other) = false := by simpa [hp] using Ne.symm h
          simp only [List.filter_cons, h1, List.find?_cons, h2, Bool.false_eq_true, if_false, ih]
        · have h1 : (entry.1 != place) = true := by simp [hp]
          simp only [List.filter_cons, h1, if_true, List.find?_cons, ih]
  simp only [read?, removeAt, hfind]

/-- What is at another place stays as it is. -/
theorem writeAt_read?_other (tree : FileTree) {place other : Place} (bytes : Bytes)
    (h : other ≠ place) : (tree.writeAt place bytes).read? other = tree.read? other := by
  have hne : (place == other) = false := by simpa using Ne.symm h
  have hwrite : (tree.writeAt place bytes).read? other = (tree.removeAt place).read? other := by
    simp only [read?, writeAt, removeAt, List.find?_cons, hne]
  rw [hwrite, removeAt_read?_other tree h]

end FileTree

end Flowchart
