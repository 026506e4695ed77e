import OpenStreamGrid.Lib.OrderedMap
import OpenStreamGrid.Lib.PosixPath

/-!
# A tree of regular files and directories

The entries of a file system under their paths, in some order of listing. That
every entry stands in a directory is carried by the type, so an operation is the
change of one path together with the conditions under which it fails.
-/

namespace OpenStreamGrid

inductive FileEntry
  | file (contents : List UInt8)
  | directory
deriving DecidableEq

namespace FileEntry

def isFile : FileEntry → Bool
  | .file _ => true
  | .directory => false

end FileEntry

/-- `ENOENT`, `ENOTDIR` and `EISDIR`. -/
inductive FileError
  | notFound
  | notDirectory
  | isDirectory
deriving DecidableEq

/-- What stands at a path; at the empty path the root directory. -/
def entryAt (entries : OrderedMap AbsolutePath FileEntry) (path : AbsolutePath) :
    Option FileEntry :=
  if path = [] then some .directory else entries.get? path

structure FileTree where
  entries : OrderedMap AbsolutePath FileEntry
  placed : ∀ path ∈ entries.keys, path ≠ [] ∧ entryAt entries path.dropLast = some .directory

namespace FileTree

variable (tree : FileTree) (path : AbsolutePath)

def find? : Option FileEntry := entryAt tree.entries path

/-! ## The operations -/

/-- The error of a path at which nothing stands: a file on the way, or nothing there. -/
def missing : FileError :=
  if path.dropLast.inits.any fun ancestor => (tree.find? ancestor).any FileEntry.isFile then
    .notDirectory
  else .notFound

/-- The entries below a directory. -/
def readdir : Except FileError (List (AbsolutePath × FileEntry)) :=
  match tree.find? path with
  | some .directory => .ok (tree.entries.entries.filter fun entry => path.Below entry.1)
  | some (.file _) => .error .notDirectory
  | none => .error (tree.missing path)

def readFile : Except FileError (List UInt8) :=
  match tree.find? path with
  | some (.file contents) => .ok contents
  | some .directory => .error .isDirectory
  | none => .error (tree.missing path)

/-- A file can be written here: in a directory, and not over one. -/
def Writable : Prop :=
  path ≠ [] ∧ tree.find? path ≠ some .directory ∧ tree.find? path.dropLast = some .directory

instance decidableWritable : Decidable (tree.Writable path) :=
  inferInstanceAs (Decidable (path ≠ [] ∧ tree.find? path ≠ some .directory ∧
    tree.find? path.dropLast = some .directory))

variable {tree path}

theorem entryAt_set {entries : OrderedMap AbsolutePath FileEntry} {path : AbsolutePath}
    (h : path ≠ []) (entry : FileEntry) (path' : AbsolutePath) :
    entryAt (entries.set path entry) path'
      = if path' = path then some entry else entryAt entries path' := by
  unfold entryAt
  rw [OrderedMap.get?_set]
  split_ifs with hroot heq heq
  · exact absurd (heq ▸ hroot) h
  · rfl
  · rfl
  · rfl

theorem entryAt_delete {entries : OrderedMap AbsolutePath FileEntry} {path : AbsolutePath}
    (h : path ≠ []) (path' : AbsolutePath) :
    entryAt (entries.delete path) path' = if path' = path then none else entryAt entries path' := by
  unfold entryAt
  rw [OrderedMap.get?_delete]
  split_ifs with hroot heq heq
  · exact absurd (heq ▸ hroot) h
  · rfl
  · rfl
  · rfl

/-- The tree with a file at a path that can be written. -/
def put (tree : FileTree) (path : AbsolutePath) (h : tree.Writable path)
    (contents : List UInt8) : FileTree where
  entries := tree.entries.set path (.file contents)
  placed := by
    intro path' hmem
    obtain ⟨hpath, hentry, hparent⟩ := h
    -- No parent is the written path, since a directory is not written over.
    have hkept : ∀ parent, tree.find? parent = some .directory →
        entryAt (tree.entries.set path (.file contents)) parent = some .directory := by
      intro parent hdirectory
      rw [entryAt_set hpath, if_neg]
      · exact hdirectory
      · rintro rfl
        exact hentry hdirectory
    rcases OrderedMap.mem_set.mp hmem with hold | rfl
    · obtain ⟨hpath', hparent'⟩ := tree.placed path' hold
      exact ⟨hpath', hkept _ hparent'⟩
    · exact ⟨hpath, hkept _ hparent⟩

/-- The tree without a path that is no directory. -/
def remove (tree : FileTree) (path : AbsolutePath) (h : tree.find? path ≠ some .directory) :
    FileTree where
  entries := tree.entries.delete path
  placed := by
    intro path' hmem
    have hpath : path ≠ [] := by
      rintro rfl
      exact h rfl
    obtain ⟨hpath', hparent'⟩ := tree.placed path' (OrderedMap.mem_delete.mp hmem).1
    refine ⟨hpath', ?_⟩
    rw [entryAt_delete hpath, if_neg]
    · exact hparent'
    · intro heq
      exact h (heq ▸ hparent')

def writeFile (tree : FileTree) (path : AbsolutePath) (contents : List UInt8) :
    Except FileError FileTree :=
  if h : tree.Writable path then .ok (tree.put path h contents)
  else if tree.find? path = some .directory then .error .isDirectory
  else .error (tree.missing path)

def unlink (tree : FileTree) (path : AbsolutePath) : Except FileError FileTree :=
  match tree.find? path with
  | none => .error (tree.missing path)
  | some _ =>
      if h : tree.find? path = some .directory then .error .isDirectory
      else .ok (tree.remove path h)

/-- Renames a regular file, over the file at its new path if there is one. -/
def renameFile (tree : FileTree) (path path' : AbsolutePath) : Except FileError FileTree :=
  match tree.readFile path with
  | .error error => .error error
  | .ok contents =>
      match tree.writeFile path' contents with
      | .error error => .error error
      | .ok written => if path = path' then .ok tree else written.unlink path

/-! ## What they do -/

theorem find?_put {h : tree.Writable path} {contents : List UInt8} (path' : AbsolutePath) :
    (tree.put path h contents).find? path'
      = if path' = path then some (.file contents) else tree.find? path' :=
  entryAt_set h.1 _ path'

theorem find?_remove {h : tree.find? path ≠ some .directory} (path' : AbsolutePath) :
    (tree.remove path h).find? path' = if path' = path then none else tree.find? path' := by
  refine entryAt_delete ?_ path'
  rintro rfl
  exact h rfl

theorem readFile_of_file {contents : List UInt8} (h : tree.find? path = some (.file contents)) :
    tree.readFile path = .ok contents := by
  unfold readFile
  rw [h]

theorem file_of_readFile {contents : List UInt8} (h : tree.readFile path = .ok contents) :
    tree.find? path = some (.file contents) := by
  unfold readFile at h
  split at h
  · injection h with h
    rwa [← h]
  · exact nomatch h
  · exact nomatch h

theorem file_inj {contents contents' : List UInt8} (h : tree.find? path = some (.file contents))
    (h' : tree.find? path = some (.file contents')) : contents = contents' :=
  FileEntry.file.inj (Option.some.inj (h.symm.trans h'))

/-- Where an entry stands, there is a directory around it. -/
theorem parent_of_entry {entry : FileEntry} (hpath : path ≠ [])
    (h : tree.find? path = some entry) :
    tree.find? path.dropLast = some .directory := by
  have hget : tree.entries.get? path = some entry := by
    unfold find? entryAt at h
    rwa [if_neg hpath] at h
  exact (tree.placed path (OrderedMap.mem_of_get? hget)).2

theorem writeFile_ok (h : tree.Writable path) (contents : List UInt8) :
    ∃ written, tree.writeFile path contents = .ok written ∧ ∀ path', written.find? path'
      = if path' = path then some (.file contents) else tree.find? path' :=
  ⟨tree.put path h contents, dif_pos h, find?_put⟩

theorem writeFile_directory (h : tree.find? path = some .directory) (contents : List UInt8) :
    tree.writeFile path contents = .error .isDirectory := by
  unfold writeFile
  rw [dif_neg fun hwritable => hwritable.2.1 h, if_pos h]

theorem unlink_file {contents : List UInt8} (h : tree.find? path = some (.file contents)) :
    ∃ left, tree.unlink path = .ok left ∧ ∀ path', left.find? path'
      = if path' = path then none else tree.find? path' := by
  have hne : tree.find? path ≠ some .directory := by
    rw [h]
    exact nofun
  refine ⟨tree.remove path hne, ?_, find?_remove⟩
  unfold unlink
  split
  · rename_i hnone
    rw [h] at hnone
    exact nomatch hnone
  · exact dif_neg hne

theorem unlink_missing (h : tree.find? path = none) :
    tree.unlink path = .error (tree.missing path) := by
  unfold unlink
  split
  · rfl
  · rename_i hentry
    rw [h] at hentry
    exact nomatch hentry

theorem unlink_directory (h : tree.find? path = some .directory) :
    tree.unlink path = .error .isDirectory := by
  unfold unlink
  split
  · rename_i hnone
    rw [h] at hnone
    exact nomatch hnone
  · exact dif_pos h

theorem renameFile_ok {path' : AbsolutePath} {contents : List UInt8} (hne : path ≠ path')
    (h : tree.find? path = some (.file contents)) (h' : tree.Writable path') :
    ∃ renamed, tree.renameFile path path' = .ok renamed ∧ ∀ path'', renamed.find? path''
      = if path'' = path then none
        else if path'' = path' then some (.file contents) else tree.find? path'' := by
  obtain ⟨written, hwrite, hwritten⟩ := writeFile_ok h' contents
  have hsource : written.find? path = some (.file contents) := by
    rw [hwritten, if_neg hne, h]
  obtain ⟨left, hunlink, hleft⟩ := unlink_file hsource
  refine ⟨left, ?_, fun path'' => ?_⟩
  · unfold renameFile
    rw [readFile_of_file h]
    simp only [hwrite, if_neg hne, hunlink]
  · rw [hleft, hwritten]

theorem renameFile_directory {path' : AbsolutePath} {contents : List UInt8}
    (h : tree.find? path = some (.file contents)) (h' : tree.find? path' = some .directory) :
    tree.renameFile path path' = .error .isDirectory := by
  unfold renameFile
  rw [readFile_of_file h]
  simp only [writeFile_directory h']

theorem find?_written {written : FileTree} {contents : List UInt8}
    (h : tree.writeFile path contents = .ok written) :
    written.find? path = some (.file contents) := by
  unfold writeFile at h
  split_ifs at h with hwritable
  obtain rfl := Except.ok.inj h
  rw [find?_put, if_pos rfl]

theorem find?_unlinked {left : FileTree} (h : tree.unlink path = .ok left) :
    left.find? path = none := by
  unfold unlink at h
  split at h
  · exact nomatch h
  · split_ifs at h with hdirectory
    obtain rfl := Except.ok.inj h
    rw [find?_remove, if_pos rfl]

/-! ## What they leave alone -/

theorem find?_of_writeFile {written : FileTree} {contents : List UInt8} {path' : AbsolutePath}
    (h : tree.writeFile path contents = .ok written) (hne : path' ≠ path) :
    written.find? path' = tree.find? path' := by
  unfold writeFile at h
  split_ifs at h with hwritable
  obtain rfl := Except.ok.inj h
  rw [find?_put, if_neg hne]

theorem find?_of_unlink {left : FileTree} {path' : AbsolutePath} (h : tree.unlink path = .ok left)
    (hne : path' ≠ path) : left.find? path' = tree.find? path' := by
  unfold unlink at h
  split at h
  · exact nomatch h
  · split_ifs at h with hdirectory
    obtain rfl := Except.ok.inj h
    rw [find?_remove, if_neg hne]

theorem find?_of_renameFile {renamed : FileTree} {path' path'' : AbsolutePath}
    (h : tree.renameFile path path' = .ok renamed) (hne : path'' ≠ path) (hne' : path'' ≠ path') :
    renamed.find? path'' = tree.find? path'' := by
  unfold renameFile at h
  split at h
  · exact nomatch h
  · split at h
    · exact nomatch h
    · rename_i written hwrite
      split_ifs at h with hsame
      · obtain rfl := Except.ok.inj h
        rfl
      · rw [find?_of_unlink h hne, find?_of_writeFile hwrite hne']

/-- After a rename an entry is the one before it, the file that was renamed, or none. -/
theorem find?_renamed {renamed : FileTree} {path' path'' : AbsolutePath}
    (h : tree.renameFile path path' = .ok renamed) : renamed.find? path'' = tree.find? path'' ∨
      (path' = path'' ∧ renamed.find? path'' = tree.find? path) ∨ renamed.find? path'' = none := by
  by_cases hold : path'' = path
  · subst hold
    unfold renameFile at h
    split at h
    · exact nomatch h
    · split at h
      · exact nomatch h
      · split_ifs at h with hsame
        · obtain rfl := Except.ok.inj h
          exact Or.inl rfl
        · exact Or.inr (Or.inr (find?_unlinked h))
  · by_cases hnew : path'' = path'
    · subst hnew
      refine Or.inr (Or.inl ⟨rfl, ?_⟩)
      unfold renameFile at h
      split at h
      · exact nomatch h
      · rename_i contents hread
        split at h
        · exact nomatch h
        · rename_i written hwrite
          split_ifs at h with hsame
          · exact absurd hsame.symm hold
          · rw [find?_of_unlink h hold, find?_written hwrite, file_of_readFile hread]
    · exact Or.inl (find?_of_renameFile h hold hnew)

end FileTree

end OpenStreamGrid
