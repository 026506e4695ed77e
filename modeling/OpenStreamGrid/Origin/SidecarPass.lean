import OpenStreamGrid.Lib.FileTree
import OpenStreamGrid.Lib.OrderedSet
import OpenStreamGrid.Origin.PlaylistFiles

/-!
# The sidecar pass

One pass over a directory of HLS output: the segments its playlists list get a file
with their SHA-256 beside them, written under a temporary name and renamed, and the
files of segments that are gone are removed. A failing call ends the pass unless the
segment was not found. The hash and the reading of a file as UTF-8 are parameters.
-/

namespace OpenStreamGrid

def SIDECAR_SUFFIX : List Char := ".sha256".toList

/-- `${segment}${SIDECAR_SUFFIX}` -/
def sidecarOf (segment : List Char) : List Char := segment ++ SIDECAR_SUFFIX

/-- `${sidecar}.${process.pid}.tmp`, for the sidecar of a segment -/
def temporaryOf (pid : ℕ) (segment : List Char) : List Char :=
  sidecarOf segment ++ '.' :: Nat.toDigits 10 pid ++ ".tmp".toList

/-- A call of the pass that reads a segment's bytes or changes the tree. -/
inductive FileCall
  | hash (path : List Char)
  | write (path : List Char)
  | rename (path path' : List Char)
  | unlink (path : List Char)
deriving DecidableEq

def FileCall.paths : FileCall → List (List Char)
  | .hash path | .write path | .unlink path => [path]
  | .rename path path' => [path, path']

/-- What the pass takes from its process. -/
structure SidecarProcess where
  sha256 : List UInt8 → List UInt8
  utf8 : List UInt8 → List Char
  pid : ℕ
  cwd : AbsolutePath

structure SidecarPassResult where
  written : List (List Char)
  removed : List (List Char)
deriving DecidableEq

structure PassState where
  tree : FileTree
  calls : List FileCall
  written : List (List Char)
  removed : List (List Char)

def PassState.start (tree : FileTree) : PassState := ⟨tree, [], [], []⟩

def PassState.called (state : PassState) (call : FileCall) : PassState :=
  { state with calls := state.calls ++ [call] }

namespace SidecarProcess

variable (process : SidecarProcess)

/-- `${digest}  ${path.basename(segment)}\n` -/
def sidecarText (segment : List Char) (contents : List UInt8) : List Char :=
  hexText (process.sha256 contents) ++ ("  ".toList ++ AbsolutePath.basename segment ++ ['\n'])

def sidecarContents (segment : List Char) (contents : List UInt8) : List UInt8 :=
  (process.sidecarText segment contents).flatMap String.utf8EncodeChar

/-- `unlink(file).catch(() => undefined)` -/
def unlink (state : PassState) (file : List Char) : PassState :=
  { state.called (.unlink file) with
    tree := (state.tree.unlink (process.cwd.resolve file)).toOption.getD state.tree }

/-! ## One segment -/

/-- The `try` block: hash, write under the temporary name, rename. -/
def writeSidecar (root : AbsolutePath) (state : PassState) (segment : List Char) :
    PassState × Option FileError :=
  let sidecar := sidecarOf segment
  let temporary := temporaryOf process.pid segment
  let hashed := state.called (.hash segment)
  match state.tree.readFile (process.cwd.resolve segment) with
  | .error error => (hashed, some error)
  | .ok contents =>
      let wrote := hashed.called (.write temporary)
      match state.tree.writeFile (process.cwd.resolve temporary)
          (process.sidecarContents segment contents) with
      | .error error => (wrote, some error)
      | .ok tree =>
          let renamed := wrote.called (.rename temporary sidecar)
          match tree.renameFile (process.cwd.resolve temporary) (process.cwd.resolve sidecar) with
          | .error error => ({ renamed with tree := tree }, some error)
          | .ok tree =>
              ({ renamed with
                tree := tree
                written := state.written ++ [root.relative (process.cwd.resolve segment)] }, none)

/-- One round of the loop over the listed segments. -/
def coverSegment (root : AbsolutePath) (files : OrderedSet (List Char)) (state : PassState)
    (segment : List Char) : PassState × Option FileError :=
  if segment ∉ files ∨ sidecarOf segment ∈ files then (state, none)
  else
    match process.writeSidecar root state segment with
    | (state, none) => (state, none)
    | (state, some error) =>
        -- The packager deleted the segment while it was being hashed.
        (process.unlink state (temporaryOf process.pid segment),
          if error = .notFound then none else some error)

/-- The loop over the listed segments, up to the first error that is thrown. -/
def coverSegments (root : AbsolutePath) (files : OrderedSet (List Char)) :
    PassState → List (List Char) → PassState × Option FileError
  | state, [] => (state, none)
  | state, segment :: segments =>
      match process.coverSegment root files state segment with
      | (state, none) => coverSegments root files state segments
      | (state, some error) => (state, some error)

/-! ## The pass -/

/-- A sidecar of a media segment that is not among the files. -/
def isOrphan (files : OrderedSet (List Char)) (file : List Char) : Bool :=
  SIDECAR_SUFFIX.isSuffixOf file && isMediaSegmentFile (file.rdrop SIDECAR_SUFFIX.length) &&
    file.rdrop SIDECAR_SUFFIX.length ∉ files

/-- One round of the loop over the files. -/
def pruneFile (root : AbsolutePath) (files : OrderedSet (List Char)) (state : PassState)
    (file : List Char) : PassState :=
  if isOrphan files file then
    { process.unlink state file with
      removed := state.removed ++ [root.relative (process.cwd.resolve file)] }
  else state

/-- The regular files below the root. -/
def filesOf (entries : List (AbsolutePath × FileEntry)) : OrderedSet (List Char) :=
  OrderedSet.ofList ((entries.filter fun entry => entry.2.isFile).map fun entry => entry.1.text)

/-- What the playlists among the files list. -/
def listedSegments (root : List Char) (tree : FileTree) (files : OrderedSet (List Char)) :
    OrderedSet (List Char) :=
  files.toList.foldl (fun listed file =>
    if ".m3u8".toList.isSuffixOf file then
      match tree.readFile (process.cwd.resolve file) with
      | .error _ => listed
      | .ok contents =>
          listed.insertAll
            (playlistSegmentFiles process.cwd (process.utf8 contents) file root)
    else listed) ∅

def writeSidecars (tree : FileTree) (root : List Char) :
    PassState × Except FileError SidecarPassResult :=
  let resolvedRoot := process.cwd.resolve root
  match tree.readdir resolvedRoot with
  | .error error => (PassState.start tree, .error error)
  | .ok entries =>
      let files := filesOf entries
      let listed := process.listedSegments resolvedRoot.text tree files
      match process.coverSegments resolvedRoot files (PassState.start tree) listed.toList with
      | (state, some error) => (state, .error error)
      | (state, none) =>
          let state := files.toList.foldl (process.pruneFile resolvedRoot files) state
          (state, .ok ⟨state.written, state.removed⟩)

/-! ## Reading a sidecar -/

theorem hexText_digits (bytes : List UInt8) : ∀ c ∈ hexText bytes,
    isHexDigit c = true ∧ isWhiteSpace c = false ∧ c.toLower = c := by
  have hdigit : ∀ n < 16, isHexDigit (Nat.digitChar n) = true ∧
      isWhiteSpace (Nat.digitChar n) = false ∧
        (Nat.digitChar n).toLower = Nat.digitChar n := by decide
  intro c hc
  obtain ⟨byte, -, hbyte⟩ := List.mem_flatMap.mp hc
  have hlt : byte.toNat < 256 := byte.toNat_lt
  rw [hexByte_eq] at hbyte
  rcases List.mem_pair.mp hbyte with rfl | rfl
  · exact hdigit _ (by omega)
  · exact hdigit _ (by omega)

theorem length_hexText (bytes : List UInt8) : (hexText bytes).length = 2 * bytes.length := by
  induction bytes with
  | nil => rfl
  | cons byte bytes ih =>
      show (hexByte byte ++ hexText bytes).length = _
      rw [List.length_append, ih, hexByte_eq]
      show 2 + 2 * bytes.length = 2 * (bytes.length + 1)
      omega

/-- White space is trimmed behind a text that has none. -/
theorem exists_trim_append {digits : List Char} (h : ∀ c ∈ digits, isWhiteSpace c = false)
    (hne : digits ≠ []) (rest : List Char) : ∃ rest', trim (digits ++ rest) = digits ++ rest' := by
  obtain ⟨c, tail, rfl⟩ := List.exists_cons_of_ne_nil hne
  have hhead : ((c :: tail) ++ rest).dropWhile isWhiteSpace = (c :: tail) ++ rest := by
    rw [List.cons_append, List.dropWhile_cons_of_neg]
    rw [h c List.mem_cons_self]
    exact Bool.false_ne_true
  have hself : (c :: tail).reverse.dropWhile isWhiteSpace = (c :: tail).reverse := by
    refine List.dropWhile_eq_self_iff.mpr fun hl => ?_
    rw [h _ (List.mem_reverse.mp (List.getElem_mem hl))]
    exact Bool.false_ne_true
  unfold trim
  rw [hhead, List.reverse_append, List.dropWhile_append]
  split_ifs
  · refine ⟨[], ?_⟩
    rw [hself, List.reverse_reverse, List.append_nil]
  · refine ⟨(rest.reverse.dropWhile isWhiteSpace).reverse, ?_⟩
    rw [List.reverse_append, List.reverse_reverse]

/-- The browser reads back the digest that the pass wrote. -/
theorem parseSha256_sidecarText {contents : List UInt8}
    (h : (process.sha256 contents).length = 32) (segment : List Char) :
    Sdk.parseSha256 (process.sidecarText segment contents)
      = some (hexText (process.sha256 contents)) := by
  have hlength : (hexText (process.sha256 contents)).length = 64 := by
    rw [length_hexText, h]
  have hdigits := hexText_digits (process.sha256 contents)
  obtain ⟨rest, hrest⟩ := exists_trim_append (fun c hc => (hdigits c hc).2.1)
    (List.ne_nil_of_length_pos (by omega)) ("  ".toList ++ AbsolutePath.basename segment ++ ['\n'])
  have hlower : (hexText (process.sha256 contents)).map Char.toLower
      = hexText (process.sha256 contents) := by
    conv_rhs => rw [← List.map_id (hexText (process.sha256 contents))]
    exact List.map_congr_left fun c hc => (hdigits c hc).2.2
  have hall : (hexText (process.sha256 contents)).all isHexDigit = true :=
    List.all_eq_true.mpr fun c hc => (hdigits c hc).1
  unfold Sdk.parseSha256 sidecarText leadingHash?
  rw [hrest, List.take_left' hlength]
  dsimp only
  rw [if_pos ⟨hlength, hall⟩, hlower]

/-- The sidecar names the file of the segment. -/
theorem sidecarText_concat (directory : AbsolutePath) (name : FileName) (contents : List UInt8) :
    process.sidecarText (AbsolutePath.text (directory ++ [name])) contents
      = hexText (process.sha256 contents) ++ ("  ".toList ++ name.val ++ ['\n']) := by
  unfold sidecarText
  rw [AbsolutePath.basename_text]

end SidecarProcess

end OpenStreamGrid
