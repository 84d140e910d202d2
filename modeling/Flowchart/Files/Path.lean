import Flowchart.Text.Basic

/-!
# Written paths

A path is written as names with slashes between them. Empty names and single dots say nothing and
are left out; a double dot, the folder around, is kept, since what it means depends on the
folders that are there.
-/

set_option autoImplicit false

namespace Flowchart

open Text

/-- A path as it is written: the slashes that it begins with, and its names. -/
structure WrittenPath where
  root : Text
  names : List Text
deriving DecidableEq, Repr

namespace WrittenPath

/-- The name of the folder around a folder. -/
def around : Text := "..".toList

/-- The slashes that a path begins with: none, two, or else one. -/
def rootOf (t : Text) : Text :=
  match (t.takeWhile (· == '/')).length with
  | 0 => []
  | 2 => "//".toList
  | _ => "/".toList

def ofText (t : Text) : WrittenPath :=
  ⟨rootOf t, (pieces '/' t).filter fun name => !(name.isEmpty || name == ['.'])⟩

/-- The text of a path; a dot when it has no names. -/
def text (p : WrittenPath) : Text :=
  if p.root.isEmpty && p.names.isEmpty then ['.'] else p.root ++ join ['/'] p.names

/-- The path of the folder that a path names something in. -/
def parent (p : WrittenPath) : WrittenPath := { p with names := p.names.dropLast }

/-- The last name of a path without what follows its last dot. A dot at the beginning or at the
end of the name does not count. -/
def stem (p : WrittenPath) : Text :=
  match p.names.getLast? with
  | none => []
  | some name =>
      match cutAt '.' name.reverse with
      | some (_ :: _, d :: before) => (d :: before).reverse
      | _ => name

end WrittenPath

end Flowchart
