import Flowchart.Files.Tree

/-!
# What writing changes

Making folders changes no file (`makeFolders_files`), and writing a file of text changes the file at
one place and no other: main statements `writing_writePath` and `Writing.read?_other`. A text
without bytes leaves the file empty.

The place that a path leads to is a matter of its names and of the folder that it starts from
(`find_eq_placeFrom`). What is in the tree only decides whether there is a way.
-/

set_option autoImplicit false

namespace Flowchart

open Text

/-! ## Where a path leads -/

namespace WrittenPath

/-- A step along a path: into a folder, or out of it. -/
def step (place : Place) (name : Text) : Place :=
  if name = around then place.dropLast else place ++ [name]

/-- The place that a path names, seen from a folder. -/
def placeFrom (path : WrittenPath) (folder : Place) : Place :=
  path.names.foldl step (if path.root.isEmpty then folder else [])

end WrittenPath

namespace FileTree

variable {tree : FileTree} {folder place : Place} {path : WrittenPath}

theorem walk_eq_foldl {names : List Text} (h : tree.walk folder names = .ok place) :
    place = names.foldl WrittenPath.step folder := by
  induction names generalizing folder with
  | nil =>
      cases h
      rfl
  | cons name names ih =>
      unfold walk at h
      show place = names.foldl WrittenPath.step (WrittenPath.step folder name)
      unfold WrittenPath.step
      split at h
      · cases h
      · split at h
        · cases h
        · by_cases haround : name = WrittenPath.around
          · rw [if_pos haround] at h ⊢
            split at h
            · cases h
            · exact ih h
          · rw [if_neg haround] at h ⊢
            exact ih h

theorem find_eq_placeFrom (h : tree.find folder path = .ok place) :
    place = path.placeFrom folder := by
  unfold find at h
  unfold WrittenPath.placeFrom
  split at h
  · cases h
  · split at h
    · cases h
    · by_cases hroot : path.root.isEmpty = true
      · rw [if_pos hroot] at h ⊢
        exact walk_eq_foldl h
      · rw [if_neg hroot] at h ⊢
        split at h
        · exact walk_eq_foldl h
        · cases h

/-! ## Folders -/

theorem read?_congr {other : FileTree} (h : other.files = tree.files) (place : Place) :
    other.read? place = tree.read? place := by
  unfold read?
  rw [h]

theorem makeFolder_files {after : FileTree} (h : tree.makeFolder folder path = .made after) :
    after.files = tree.files := by
  unfold makeFolder at h
  split at h
  · cases h
  · split at h
    · cases h
      rfl
    · split at h
      · cases h
      · cases h
        rfl

theorem result_files (tree : FileTree) (folder : Place) (path : WrittenPath) :
    ((tree.makeFolder folder path).result tree path).tree.files = tree.files := by
  cases hmaking : tree.makeFolder folder path with
  | made after => exact makeFolder_files hmaking
  | stopped obstacle => rfl
  | inTheWay => rfl

/-- No file is changed by folders that are made, however far their making comes. -/
theorem makeFolders_files (tree : FileTree) (folder : Place) (root : Text)
    (reversed : List Text) : (tree.makeFolders folder root reversed).tree.files = tree.files := by
  -- Along the path from its end: a folder is made once those around it are.
  induction reversed with
  | nil => exact result_files tree folder ⟨root, []⟩
  | cons name names ih =>
      have hfirst := result_files tree folder ⟨root, (name :: names).reverse⟩
      unfold makeFolders
      simp only
      split
      · split
        · rename_i before fault hbefore
          rw [hbefore] at ih
          exact ih
        · rename_i before hbefore
          rw [hbefore] at ih
          exact (result_files before folder ⟨root, (name :: names).reverse⟩).trans ih
      · exact hfirst

/-! ## Files -/

/-- The ways in which the writing of a file can end, as seen from the tree before it. -/
inductive Writing (tree : FileTree) (place : Place) (s : RawText) : Result → Prop where
  /-- The file stands at its place. -/
  | written {before : FileTree} {bytes : Bytes} (hfiles : before.files = tree.files)
      (hbytes : Encoding.writeUtf8 s = .ok bytes) :
      Writing tree place s { tree := before.writeAt place bytes }
  /-- The text has no bytes, and the file at its place is empty. -/
  | emptied {before : FileTree} {fault : Encoding.HalfFault} (hfiles : before.files = tree.files)
      (hfault : Encoding.writeUtf8 s = .error fault) :
      Writing tree place s
        { tree := before.writeAt place [], fault := some (.unwritable fault) }
  /-- Something is in the way. -/
  | stopped {after : FileTree} {fault : FileFault} (hfiles : after.files = tree.files) :
      Writing tree place s { tree := after, fault := some fault }

variable {s : RawText}

theorem writing_writePath (tree : FileTree) (folder : Place) (path : WrittenPath) (s : RawText) :
    Writing tree (path.placeFrom folder) s (tree.writePath folder path s) := by
  have hfolders := makeFolders_files tree folder path.root path.parent.names.reverse
  unfold writePath
  split
  · rename_i before fault hbefore
    rw [hbefore] at hfolders
    exact .stopped hfolders
  · rename_i before hbefore
    rw [hbefore] at hfolders
    cases hfind : before.find folder path with
    | error obstacle => exact .stopped hfolders
    | ok place =>
        dsimp only
        by_cases hfolder : before.isFolder place = true
        · rw [if_pos hfolder]
          exact .stopped hfolders
        · rw [if_neg hfolder, ← find_eq_placeFrom hfind]
          cases hbytes : Encoding.writeUtf8 s with
          | ok bytes => exact .written hfolders hbytes
          | error fault => exact .emptied hfolders hbytes

/-- No other file is changed. -/
theorem Writing.read?_other {result : Result} (h : Writing tree place s result) {other : Place}
    (hother : other ≠ place) : result.tree.read? other = tree.read? other := by
  cases h with
  | @written before bytes hfiles =>
      exact (writeAt_read?_other before bytes hother).trans (read?_congr hfiles other)
  | @emptied before fault hfiles =>
      exact (writeAt_read?_other before [] hother).trans (read?_congr hfiles other)
  | stopped hfiles => exact read?_congr hfiles other

/-- A file that is written stands at its place. -/
theorem Writing.read? {result : Result} (h : Writing tree place s result)
    (hfault : result.fault = none) :
    ∃ t, s = .ofText t ∧ result.tree.read? place = some (Encoding.encodeUtf8 t) := by
  cases h with
  | @written before bytes hfiles hbytes =>
      obtain ⟨t, rfl, rfl⟩ := Encoding.writeUtf8_eq_ok_iff.mp hbytes
      exact ⟨t, rfl, writeAt_read? before place _⟩
  | emptied => cases hfault
  | stopped => cases hfault

/-- Where the writing has stopped, a file that is changed all the same has been emptied, for the
halves in the text. -/
theorem Writing.changed {result : Result} (h : Writing tree place s result) {fault : FileFault}
    (hfault : result.fault = some fault) {other : Place}
    (hchanged : result.tree.read? other ≠ tree.read? other) :
    s.isWhole = false ∧ (∃ half, fault = .unwritable half) ∧ other = place ∧
      result.tree.read? other = some [] := by
  have hplace : other = place :=
    Decidable.byContradiction fun hother => hchanged (h.read?_other hother)
  cases h with
  | written => cases hfault
  | @emptied before half hfiles hhalf =>
      obtain rfl := Option.some.inj hfault
      refine ⟨Encoding.isWhole_eq_false_of_writeUtf8 hhalf, ⟨half, rfl⟩, hplace, ?_⟩
      rw [hplace]
      exact writeAt_read? before place []
  | stopped hfiles => exact absurd (read?_congr hfiles other) hchanged

end FileTree

end Flowchart
