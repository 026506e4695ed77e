import Mathlib.Data.Set.Basic
import OpenStreamGrid.Origin.SidecarPass

/-!
# What a sidecar pass leaves behind

A segment path carries that it is a media segment below the root, so its sidecar and
its temporary file have paths of their own, no two of which are the same. One round
of the loop changes these two paths; the run collects the rounds.
-/

namespace OpenStreamGrid

/-! ## Paths of the pass -/

def sidecarSuffix : FileSuffix := ⟨SIDECAR_SUFFIX, by decide⟩

def temporarySuffix (pid : ℕ) : FileSuffix :=
  ⟨SIDECAR_SUFFIX ++ '.' :: Nat.toDigits 10 pid ++ ".tmp".toList, by
    have hdigits : '/' ∉ Nat.toDigits 10 pid := by
      intro h
      exact absurd (Nat.isDigit_of_mem_toDigits (by decide) (by decide) h) (by decide)
    refine ⟨?_, ?_⟩
    · simp only [List.mem_append, List.mem_cons, not_or]
      exact ⟨⟨by decide, by decide, hdigits⟩, by decide⟩
    · have hlength : SIDECAR_SUFFIX.length = 7 := rfl
      simp only [List.length_append, hlength]
      omega⟩

/-- A media segment below the root. -/
abbrev SegmentPath (root : AbsolutePath) : Type :=
  {path : AbsolutePath // root.Below path ∧ isMediaSegmentFile path.text = true}

namespace SegmentPath

variable {root : AbsolutePath} (segment : SegmentPath root) (pid : ℕ)

def sidecar : AbsolutePath := segment.val.extend sidecarSuffix

def temporary : AbsolutePath := segment.val.extend (temporarySuffix pid)

theorem ne_nil : segment.val ≠ [] := segment.property.1.ne_nil

theorem text_sidecar : (sidecar segment).text = sidecarOf segment.val.text :=
  AbsolutePath.text_extend (ne_nil segment) _

theorem text_temporary : (temporary segment pid).text = temporaryOf pid segment.val.text := by
  unfold temporary temporaryOf sidecarOf
  rw [AbsolutePath.text_extend (ne_nil segment), List.append_assoc, List.append_assoc]
  rfl

@[simp] theorem resolve_sidecar (cwd : AbsolutePath) :
    cwd.resolve (sidecarOf segment.val.text) = sidecar segment := by
  rw [← text_sidecar, AbsolutePath.resolve_text]

@[simp] theorem resolve_temporary (cwd : AbsolutePath) :
    cwd.resolve (temporaryOf pid segment.val.text) = temporary segment pid := by
  rw [← text_temporary, AbsolutePath.resolve_text]

theorem below_sidecar : root.Below (sidecar segment) := segment.property.1.extend _

theorem below_temporary : root.Below (temporary segment pid) := segment.property.1.extend _

theorem sidecar_inj {segment segment' : SegmentPath root} (h : sidecar segment = sidecar segment') :
    segment = segment' :=
  Subtype.ext (AbsolutePath.extend_injective (ne_nil segment) (ne_nil segment') h)

theorem temporary_inj {segment segment' : SegmentPath root}
    (h : temporary segment pid = temporary segment' pid) : segment = segment' :=
  Subtype.ext (AbsolutePath.extend_injective (ne_nil segment) (ne_nil segment') h)

theorem dropLast_sidecar : (sidecar segment).dropLast = segment.val.dropLast :=
  AbsolutePath.dropLast_extend (ne_nil segment) _

theorem dropLast_temporary : (temporary segment pid).dropLast = segment.val.dropLast :=
  AbsolutePath.dropLast_extend (ne_nil segment) _

/-! The last character of a path tells segments, sidecars and temporary files apart. -/

theorem getLast?_of_suffix {ending file : List Char} (hne : ending ≠ []) (h : ending <:+ file) :
    file.getLast? = ending.getLast? := by
  obtain ⟨start, rfl⟩ := h
  rw [List.getLast?_append, List.getLast?_eq_some_getLast hne]
  rfl

theorem getLast?_segment : segment.val.text.getLast? = some 's' := by
  rcases isMediaSegmentFile_iff.mp segment.property.2 with h | h
  · exact getLast?_of_suffix (by decide) h
  · exact getLast?_of_suffix (by decide) h

theorem getLast?_sidecar : (sidecar segment).text.getLast? = some '6' := by
  rw [text_sidecar]
  exact getLast?_of_suffix (by decide) (List.suffix_append _ SIDECAR_SUFFIX)

theorem getLast?_temporary : (temporary segment pid).text.getLast? = some 'p' := by
  rw [text_temporary]
  exact getLast?_of_suffix (by decide) (List.suffix_append _ ".tmp".toList)

theorem ne_of_getLast? {path path' : AbsolutePath} {c c' : Char}
    (h : path.text.getLast? = some c) (h' : path'.text.getLast? = some c') (hne : c ≠ c') :
    path ≠ path' := by
  rintro rfl
  exact hne (Option.some.inj (h.symm.trans h'))

theorem temporary_ne_sidecar (segment' : SegmentPath root) :
    temporary segment pid ≠ sidecar segment' :=
  ne_of_getLast? (getLast?_temporary segment pid) (getLast?_sidecar segment') (by decide)

end SegmentPath

/-! ## What stands in a tree -/

def HasFile (tree : FileTree) (path : AbsolutePath) : Prop :=
  ∃ contents, tree.find? path = some (.file contents)

/-- The segment is there, its sidecar is not. -/
def Missing {root : AbsolutePath} (tree : FileTree) (segment : SegmentPath root) : Prop :=
  HasFile tree segment.val ∧ ¬ HasFile tree segment.sidecar

/-- A directory stands where the sidecar or its temporary file is to be written. -/
def Blocked {root : AbsolutePath} (pid : ℕ) (tree : FileTree) (segment : SegmentPath root) : Prop :=
  tree.find? segment.sidecar = some .directory ∨
    tree.find? (segment.temporary pid) = some .directory

/-- The tree after sidecars were written for some segments: these are new, their temporary files
are gone, all else is as before. -/
structure Wrote {root : AbsolutePath} (process : SidecarProcess) (before after : FileTree)
    (segments : Set (SegmentPath root)) : Prop where
  sidecar : ∀ segment ∈ segments, ∀ contents,
    before.find? segment.val = some (.file contents) → after.find? segment.sidecar
      = some (.file (process.sidecarContents segment.val.text contents))
  temporary : ∀ segment ∈ segments, after.find? (segment.temporary process.pid) = none
  other : ∀ path, (∀ segment ∈ segments,
      path ≠ segment.sidecar ∧ path ≠ segment.temporary process.pid) →
    after.find? path = before.find? path

namespace Wrote

variable {root : AbsolutePath} {process : SidecarProcess} {before after : FileTree}
  {segments : Set (SegmentPath root)}

theorem refl (process : SidecarProcess) (tree : FileTree) :
    Wrote process tree tree (∅ : Set (SegmentPath root)) :=
  ⟨fun _ h => h.elim, fun _ h => h.elim, fun _ _ => rfl⟩

/-- What ends otherwise than sidecars and temporary files do is as before. -/
theorem find?_of_getLast? (h : Wrote process before after segments) {path : AbsolutePath}
    {c : Char} (hlast : path.text.getLast? = some c) (hsidecar : c ≠ '6') (htemporary : c ≠ 'p') :
    after.find? path = before.find? path := by
  refine h.other path fun segment _ => ⟨?_, ?_⟩
  · exact SegmentPath.ne_of_getLast? hlast segment.getLast?_sidecar hsidecar
  · exact SegmentPath.ne_of_getLast? hlast (segment.getLast?_temporary _) htemporary

theorem find?_segment (h : Wrote process before after segments) (segment : SegmentPath root) :
    after.find? segment.val = before.find? segment.val :=
  h.find?_of_getLast? segment.getLast?_segment (by decide) (by decide)

/-- The sidecar and the temporary file of a segment not yet written are as before. -/
theorem find?_sidecar (h : Wrote process before after segments) {segment : SegmentPath root}
    (hnew : segment ∉ segments) : after.find? segment.sidecar = before.find? segment.sidecar := by
  refine h.other _ fun written hwritten => ⟨fun heq => ?_, fun heq => ?_⟩
  · exact hnew (SegmentPath.sidecar_inj heq ▸ hwritten)
  · exact written.temporary_ne_sidecar _ segment heq.symm

theorem find?_temporary (h : Wrote process before after segments) {segment : SegmentPath root}
    (hnew : segment ∉ segments) : after.find? (segment.temporary process.pid)
      = before.find? (segment.temporary process.pid) := by
  refine h.other _ fun written hwritten => ⟨fun heq => ?_, fun heq => ?_⟩
  · exact segment.temporary_ne_sidecar _ written heq
  · exact hnew (SegmentPath.temporary_inj _ heq ▸ hwritten)

theorem blocked_iff (h : Wrote process before after segments) {segment : SegmentPath root}
    (hnew : segment ∉ segments) :
    Blocked process.pid after segment ↔ Blocked process.pid before segment := by
  unfold Blocked
  rw [h.find?_sidecar hnew, h.find?_temporary hnew]

/-- One more segment. -/
theorem insert (h : Wrote process before after segments) {segment : SegmentPath root}
    (hnew : segment ∉ segments) {contents : List UInt8}
    (hcontents : before.find? segment.val = some (.file contents)) {next : FileTree}
    (hnext : ∀ path, next.find? path
      = if path = segment.temporary process.pid then none
        else if path = segment.sidecar then
          some (.file (process.sidecarContents segment.val.text contents))
        else after.find? path) : Wrote process before next (Insert.insert segment segments) where
  sidecar := by
    rintro written (rfl | hwritten) bytes hbytes
    · -- The new segment itself: the bytes hashed are those it had before the pass.
      rw [hcontents] at hbytes
      obtain rfl : contents = bytes := FileEntry.file.inj (Option.some.inj hbytes)
      rw [hnext, if_neg (written.temporary_ne_sidecar _ written).symm, if_pos rfl]
    · have hne : written.sidecar ≠ segment.sidecar := by
        intro heq
        exact hnew (SegmentPath.sidecar_inj heq ▸ hwritten)
      rw [hnext, if_neg (segment.temporary_ne_sidecar _ written).symm, if_neg hne]
      exact h.sidecar written hwritten bytes hbytes
  temporary := by
    rintro written (rfl | hwritten)
    · rw [hnext, if_pos rfl]
    · have hne : written.temporary process.pid ≠ segment.temporary process.pid := by
        intro heq
        exact hnew (SegmentPath.temporary_inj _ heq ▸ hwritten)
      rw [hnext, if_neg hne, if_neg (written.temporary_ne_sidecar _ segment)]
      exact h.temporary written hwritten
  other := by
    intro path hpath
    obtain ⟨hsidecar, htemporary⟩ := hpath segment (Set.mem_insert segment segments)
    rw [hnext, if_neg htemporary, if_neg hsidecar]
    exact h.other path fun written hwritten => hpath written (Set.mem_insert_of_mem _ hwritten)

/-- After sidecars were written a path is as before, or a sidecar with the hash of its segment,
or gone. -/
theorem find?_cases (h : Wrote process before after segments)
    (hmissing : ∀ segment ∈ segments, Missing before segment) (path : AbsolutePath) :
    after.find? path = before.find? path ∨ after.find? path = none ∨
      ∃ segment ∈ segments, path = segment.sidecar ∧ ∃ contents,
        before.find? segment.val = some (.file contents) ∧ after.find? path
          = some (.file (process.sidecarContents segment.val.text contents)) := by
  by_cases hpath : ∀ segment ∈ segments,
      path ≠ segment.sidecar ∧ path ≠ segment.temporary process.pid
  · exact Or.inl (h.other path hpath)
  · push Not at hpath
    obtain ⟨segment, hsegment, heq⟩ := hpath
    by_cases hsidecar : path = segment.sidecar
    · obtain ⟨contents, hcontents⟩ := (hmissing segment hsegment).1
      refine Or.inr (Or.inr ⟨segment, hsegment, hsidecar, contents, hcontents, ?_⟩)
      rw [hsidecar]
      exact h.sidecar segment hsegment contents hcontents
    · rw [heq hsidecar]
      exact Or.inr (Or.inl (h.temporary segment hsegment))

end Wrote

/-! ## One round of the loop -/

namespace SidecarProcess

variable {root : AbsolutePath} {process : SidecarProcess}

/-- A file of the given name can be written beside a segment. -/
theorem writable_beside {tree : FileTree} {segment : SegmentPath root} {path : AbsolutePath}
    (hfile : HasFile tree segment.val) (hparent : path.dropLast = segment.val.dropLast)
    (hpath : path ≠ []) (hfree : tree.find? path ≠ some .directory) : tree.Writable path := by
  obtain ⟨contents, hcontents⟩ := hfile
  refine ⟨hpath, hfree, ?_⟩
  rw [hparent]
  exact FileTree.parent_of_entry segment.ne_nil hcontents

theorem find?_unlink (process : SidecarProcess) (state : PassState) (path path' : AbsolutePath) :
    (process.unlink state path.text).tree.find? path'
      = if path' = path ∧ state.tree.find? path ≠ some .directory then none
        else state.tree.find? path' := by
  show ((state.tree.unlink (process.cwd.resolve path.text)).toOption.getD state.tree).find? path'
    = _
  rw [AbsolutePath.resolve_text]
  cases hentry : state.tree.find? path with
  | none =>
      rw [FileTree.unlink_missing hentry]
      show state.tree.find? path' = _
      split_ifs with h
      · rw [h.1, hentry]
      · rfl
  | some entry =>
      cases entry with
      | directory =>
          rw [FileTree.unlink_directory hentry, if_neg fun h => h.2 rfl]
          rfl
      | file contents =>
          obtain ⟨left, hunlink, hleft⟩ := FileTree.unlink_file hentry
          rw [hunlink]
          show left.find? path' = _
          rw [hleft]
          exact if_congr ⟨fun h => ⟨h, nofun⟩, fun h => h.1⟩ rfl rfl

/-- A segment whose two paths are free gets its sidecar. -/
theorem writeSidecar_ok (process : SidecarProcess) {state : PassState}
    {segment : SegmentPath root} {contents : List UInt8}
    (hfile : state.tree.find? segment.val = some (.file contents))
    (hfree : ¬ Blocked process.pid state.tree segment) :
    ∃ next, process.writeSidecar root state segment.val.text = (next, none) ∧
      ∀ path, next.tree.find? path
        = if path = segment.temporary process.pid then none
          else if path = segment.sidecar then
            some (.file (process.sidecarContents segment.val.text contents))
          else state.tree.find? path := by
  obtain ⟨hsidecar, htemporary⟩ := not_or.mp hfree
  have hne : segment.temporary process.pid ≠ segment.sidecar :=
    segment.temporary_ne_sidecar _ segment
  have hwritable : state.tree.Writable (segment.temporary process.pid) :=
    writable_beside ⟨contents, hfile⟩ (segment.dropLast_temporary _)
      (segment.below_temporary _).ne_nil htemporary
  -- Writing the temporary file touches neither the segment nor the sidecar's path.
  obtain ⟨wrote, hwrite, hwrote⟩ := FileTree.writeFile_ok hwritable
    (process.sidecarContents segment.val.text contents)
  have htemporary' : wrote.find? (segment.temporary process.pid)
      = some (.file (process.sidecarContents segment.val.text contents)) := by
    rw [hwrote, if_pos rfl]
  have hfile' : HasFile wrote segment.val := by
    refine ⟨contents, ?_⟩
    rw [hwrote, if_neg, hfile]
    exact SegmentPath.ne_of_getLast? segment.getLast?_segment (segment.getLast?_temporary _)
      (by decide)
  have hsidecar' : wrote.find? segment.sidecar ≠ some .directory := by
    rwa [hwrote, if_neg hne.symm]
  obtain ⟨renamed, hrename, hrenamed⟩ := FileTree.renameFile_ok hne htemporary'
    (writable_beside hfile' segment.dropLast_sidecar segment.below_sidecar.ne_nil hsidecar')
  refine ⟨{ ((state.called (.hash segment.val.text)).called
      (.write (temporaryOf process.pid segment.val.text))).called
        (.rename (temporaryOf process.pid segment.val.text) (sidecarOf segment.val.text)) with
      tree := renamed
      written := state.written ++ [root.relative segment.val] }, ?_, fun path => ?_⟩
  · simp only [writeSidecar, AbsolutePath.resolve_text, segment.resolve_temporary,
      segment.resolve_sidecar, FileTree.readFile_of_file hfile, hwrite, hrename]
  · rw [hrenamed, hwrote]
    split_ifs <;> rfl

/-- A segment one of whose two paths is a directory ends the pass; its temporary file is taken
away again. -/
theorem coverSegment_blocked {state : PassState} {segment : SegmentPath root}
    {files : OrderedSet (List Char)} (hfiles : segment.val.text ∈ files)
    (hnone : sidecarOf segment.val.text ∉ files) (hfile : HasFile state.tree segment.val)
    (hblocked : Blocked process.pid state.tree segment) :
    ∃ next, process.coverSegment root files state segment.val.text = (next, some .isDirectory) ∧
      ∀ path, next.tree.find? path = state.tree.find? path ∨
        path = segment.temporary process.pid ∧ next.tree.find? path = none := by
  obtain ⟨contents, hcontents⟩ := hfile
  have hskip : ¬ (segment.val.text ∉ files ∨ sidecarOf segment.val.text ∈ files) :=
    not_or.mpr ⟨not_not.mpr hfiles, hnone⟩
  -- Up to the failing call only the temporary file changes, and no directory is taken away there.
  have hfail : ∃ failed, process.writeSidecar root state segment.val.text
        = (failed, some .isDirectory) ∧
      ∀ path, failed.tree.find? path = state.tree.find? path ∨
        path = segment.temporary process.pid ∧ failed.tree.find? path ≠ some .directory := by
    by_cases htemporary : state.tree.find? (segment.temporary process.pid) = some .directory
    · refine ⟨(state.called (.hash segment.val.text)).called
        (.write (temporaryOf process.pid segment.val.text)), ?_, fun path => Or.inl rfl⟩
      simp only [writeSidecar, AbsolutePath.resolve_text, segment.resolve_temporary,
        FileTree.readFile_of_file hcontents, FileTree.writeFile_directory htemporary]
    · have hsidecar : state.tree.find? segment.sidecar = some .directory :=
        hblocked.resolve_right htemporary
      have hwritable : state.tree.Writable (segment.temporary process.pid) :=
        writable_beside ⟨contents, hcontents⟩ (segment.dropLast_temporary _)
          (segment.below_temporary _).ne_nil htemporary
      obtain ⟨wrote, hwrite, hwrote⟩ := FileTree.writeFile_ok hwritable
        (process.sidecarContents segment.val.text contents)
      have htemporary' : wrote.find? (segment.temporary process.pid)
          = some (.file (process.sidecarContents segment.val.text contents)) := by
        rw [hwrote, if_pos rfl]
      have hsidecar' : wrote.find? segment.sidecar = some .directory := by
        rw [hwrote, if_neg (segment.temporary_ne_sidecar _ segment).symm, hsidecar]
      refine ⟨{ ((state.called (.hash segment.val.text)).called
          (.write (temporaryOf process.pid segment.val.text))).called
            (.rename (temporaryOf process.pid segment.val.text)
              (sidecarOf segment.val.text)) with tree := wrote }, ?_, fun path => ?_⟩
      · simp only [writeSidecar, AbsolutePath.resolve_text, segment.resolve_temporary,
          segment.resolve_sidecar, FileTree.readFile_of_file hcontents, hwrite,
          FileTree.renameFile_directory htemporary' hsidecar']
      · show wrote.find? path = _ ∨ _ ∧ wrote.find? path ≠ _
        rw [hwrote]
        split_ifs with hpath
        · exact Or.inr ⟨hpath, nofun⟩
        · exact Or.inl rfl
  obtain ⟨failed, hrun, hfailed⟩ := hfail
  refine ⟨process.unlink failed (temporaryOf process.pid segment.val.text), ?_, fun path => ?_⟩
  · simp only [coverSegment, if_neg hskip, hrun]
    rfl
  · rw [← segment.text_temporary, find?_unlink]
    -- The catch block takes the temporary file away, unless it is the directory in the way.
    split_ifs with hpath
    · exact Or.inr ⟨hpath.1, rfl⟩
    · rcases hfailed path with hsame | ⟨rfl, hdirectory⟩
      · exact Or.inl hsame
      · exact absurd ⟨rfl, hdirectory⟩ hpath

/-! ## The loop -/

/-- How the loop over the segments ends: with every missing sidecar written, or at a segment one
of whose paths is a directory. -/
inductive CoverOutcome (process : SidecarProcess) (before : FileTree)
    (segments : List (SegmentPath root)) : FileTree → Option FileError → Prop
  | finished {after : FileTree} :
      Wrote process before after {segment | segment ∈ segments ∧ Missing before segment} →
      (∀ segment ∈ segments, Missing before segment → ¬ Blocked process.pid before segment) →
      CoverOutcome process before segments after none
  | stopped {reached after : FileTree} {done : Set (SegmentPath root)}
      {segment : SegmentPath root} :
      Wrote process before reached done → (∀ written ∈ done, Missing before written) →
      segment ∈ segments → Missing before segment → Blocked process.pid before segment →
      (∀ path, after.find? path = reached.find? path ∨
        path = segment.temporary process.pid ∧ after.find? path = none) →
      CoverOutcome process before segments after (some .isDirectory)

/-- The set holds the regular files below the root. -/
def FilesBelow (root : AbsolutePath) (tree : FileTree) (files : OrderedSet (List Char)) : Prop :=
  ∀ path, root.Below path → (path.text ∈ files ↔ HasFile tree path)

theorem missing_iff {before : FileTree} {files : OrderedSet (List Char)}
    (hfiles : FilesBelow root before files) (segment : SegmentPath root) :
    Missing before segment ↔
      segment.val.text ∈ files ∧ sidecarOf segment.val.text ∉ files := by
  rw [← segment.text_sidecar, hfiles _ segment.property.1, hfiles _ segment.below_sidecar]
  rfl

theorem coverSegment_skip {files : OrderedSet (List Char)} {segment : List Char}
    (h : segment ∉ files ∨ sidecarOf segment ∈ files) (state : PassState) :
    process.coverSegment root files state segment = (state, none) := by
  unfold coverSegment
  exact if_pos h

theorem coverSegment_ok {state : PassState} {segment : SegmentPath root} {contents : List UInt8}
    {files : OrderedSet (List Char)} (hfiles : segment.val.text ∈ files)
    (hnone : sidecarOf segment.val.text ∉ files)
    (hfile : state.tree.find? segment.val = some (.file contents))
    (hfree : ¬ Blocked process.pid state.tree segment) :
    ∃ next, process.coverSegment root files state segment.val.text = (next, none) ∧
      ∀ path, next.tree.find? path
        = if path = segment.temporary process.pid then none
          else if path = segment.sidecar then
            some (.file (process.sidecarContents segment.val.text contents))
          else state.tree.find? path := by
  obtain ⟨next, hrun, hnext⟩ := writeSidecar_ok process hfile hfree
  refine ⟨next, ?_, hnext⟩
  simp only [coverSegment, if_neg (not_or.mpr ⟨not_not.mpr hfiles, hnone⟩), hrun]

theorem coverSegments_outcome (process : SidecarProcess) {before : FileTree}
    {files : OrderedSet (List Char)}
    (hfiles : FilesBelow root before files) (rest : List (SegmentPath root)) :
    ∀ (seen : List (SegmentPath root)) (state : PassState), (seen ++ rest).Nodup →
      Wrote process before state.tree {segment | segment ∈ seen ∧ Missing before segment} →
      (∀ segment ∈ seen, Missing before segment → ¬ Blocked process.pid before segment) →
      CoverOutcome process before (seen ++ rest)
        (process.coverSegments root files state (rest.map fun segment => segment.val.text)).1.tree
        (process.coverSegments root files state (rest.map fun segment => segment.val.text)).2 := by
  -- `seen` are the segments done with: all of theirs that were missing are written.
  induction rest with
  | nil =>
      intro seen state _ hwrote hfree
      rw [List.append_nil]
      exact .finished hwrote hfree
  | cons segment rest ih =>
      intro seen state hnodup hwrote hfree
      have hassoc : seen ++ segment :: rest = seen ++ [segment] ++ rest := List.append_cons ..
      have hnew : segment ∉ {segment | segment ∈ seen ∧ Missing before segment} := by
        rintro ⟨hseen, -⟩
        exact (List.nodup_append.mp hnodup).2.2 segment hseen segment List.mem_cons_self rfl
      rw [List.map_cons, coverSegments]
      by_cases hmissing : Missing before segment
      · obtain ⟨hpresent, hnone⟩ := (missing_iff hfiles segment).mp hmissing
        obtain ⟨contents, hcontents⟩ := hmissing.1
        have hfile : state.tree.find? segment.val = some (.file contents) := by
          rw [hwrote.find?_segment, hcontents]
        by_cases hblocked : Blocked process.pid before segment
        · obtain ⟨next, hrun, hnext⟩ := coverSegment_blocked hpresent hnone ⟨contents, hfile⟩
            ((hwrote.blocked_iff hnew).mpr hblocked)
          rw [hrun]
          refine .stopped hwrote (fun written hwritten => hwritten.2) ?_ hmissing hblocked hnext
          exact List.mem_append_right seen List.mem_cons_self
        · obtain ⟨next, hrun, hnext⟩ := coverSegment_ok hpresent hnone hfile
            (mt (hwrote.blocked_iff hnew).mp hblocked)
          have hset : Insert.insert segment {segment | segment ∈ seen ∧ Missing before segment}
              = {written | written ∈ seen ++ [segment] ∧ Missing before written} := by
            ext written
            simp only [Set.mem_insert_iff, Set.mem_ofPred_eq, List.mem_append, List.mem_singleton]
            constructor
            · rintro (rfl | ⟨hseen, hwritten⟩)
              · exact ⟨Or.inr rfl, hmissing⟩
              · exact ⟨Or.inl hseen, hwritten⟩
            · rintro ⟨hseen | rfl, hwritten⟩
              · exact Or.inr ⟨hseen, hwritten⟩
              · exact Or.inl rfl
          rw [hrun, hassoc]
          refine ih (seen ++ [segment]) next (hassoc ▸ hnodup) ?_ fun written hwritten => ?_
          · rw [← hset]
            exact hwrote.insert hnew hcontents hnext
          · rcases List.mem_append.mp hwritten with hseen | hlast
            · exact hfree written hseen
            · rw [List.mem_singleton.mp hlast]
              exact fun _ => hblocked
      · have hskip : segment.val.text ∉ files ∨ sidecarOf segment.val.text ∈ files := by
          rw [missing_iff hfiles, not_and_or, not_not] at hmissing
          exact hmissing
        have hset : {written | written ∈ seen ++ [segment] ∧ Missing before written}
            = {segment | segment ∈ seen ∧ Missing before segment} := by
          ext written
          simp only [Set.mem_ofPred_eq, List.mem_append, List.mem_singleton]
          constructor
          · rintro ⟨hseen | rfl, hwritten⟩
            · exact ⟨hseen, hwritten⟩
            · exact absurd hwritten hmissing
          · rintro ⟨hseen, hwritten⟩
            exact ⟨Or.inl hseen, hwritten⟩
        rw [coverSegment_skip hskip, hassoc]
        refine ih (seen ++ [segment]) state (hassoc ▸ hnodup) (hset ▸ hwrote) ?_
        intro written hwritten hmissing'
        rcases List.mem_append.mp hwritten with hseen | hlast
        · exact hfree written hseen hmissing'
        · rw [List.mem_singleton.mp hlast] at hmissing'
          exact absurd hmissing' hmissing

/-! ## The calls -/

/-- Every path of the calls made so far lies inside the root. -/
def Confined (process : SidecarProcess) (root : AbsolutePath) (state : PassState) : Prop :=
  ∀ call ∈ state.calls, ∀ path ∈ call.paths, root.Below (process.cwd.resolve path)

theorem Confined.called {state : PassState} (h : Confined process root state) {call : FileCall}
    (hcall : ∀ path ∈ call.paths, root.Below (process.cwd.resolve path)) :
    Confined process root (state.called call) := by
  intro call' hmem
  rcases List.mem_append.mp hmem with hold | hnew
  · exact h call' hold
  · rw [List.mem_singleton.mp hnew]
    exact hcall

theorem Confined.unlink {state : PassState} (h : Confined process root state) {file : List Char}
    (hfile : root.Below (process.cwd.resolve file)) :
    Confined process root (process.unlink state file) := by
  refine h.called fun path hpath => ?_
  rwa [List.mem_singleton.mp hpath]

theorem Confined.writeSidecar {state : PassState} (h : Confined process root state)
    (segment : SegmentPath root) :
    Confined process root (process.writeSidecar root state segment.val.text).1 := by
  have hhash : Confined process root (state.called (.hash segment.val.text)) := by
    refine h.called fun path hpath => ?_
    rw [List.mem_singleton.mp hpath, AbsolutePath.resolve_text]
    exact segment.property.1
  have hwrite : Confined process root ((state.called (.hash segment.val.text)).called
      (.write (temporaryOf process.pid segment.val.text))) := by
    refine hhash.called fun path hpath => ?_
    rw [List.mem_singleton.mp hpath, segment.resolve_temporary]
    exact segment.below_temporary _
  have hrename : Confined process root (((state.called (.hash segment.val.text)).called
      (.write (temporaryOf process.pid segment.val.text))).called
        (.rename (temporaryOf process.pid segment.val.text) (sidecarOf segment.val.text))) := by
    refine hwrite.called fun path hpath => ?_
    rcases List.mem_pair.mp hpath with rfl | rfl
    · rw [segment.resolve_temporary]
      exact segment.below_temporary _
    · rw [segment.resolve_sidecar]
      exact segment.below_sidecar
  unfold SidecarProcess.writeSidecar
  split
  · exact hhash
  · dsimp only
    split
    · exact hwrite
    · split
      · exact hrename
      · exact hrename

theorem Confined.coverSegment {state : PassState} (h : Confined process root state)
    (files : OrderedSet (List Char)) (segment : SegmentPath root) :
    Confined process root (process.coverSegment root files state segment.val.text).1 := by
  have hwrote := h.writeSidecar segment
  unfold SidecarProcess.coverSegment
  split_ifs
  · exact h
  · generalize process.writeSidecar root state segment.val.text = outcome at hwrote ⊢
    rcases outcome with ⟨next, _ | error⟩
    · exact hwrote
    · refine hwrote.unlink ?_
      rw [segment.resolve_temporary]
      exact segment.below_temporary _

theorem Confined.coverSegments (files : OrderedSet (List Char))
    (segments : List (SegmentPath root)) : ∀ {state : PassState}, Confined process root state →
    Confined process root (process.coverSegments root files state
      (segments.map fun segment => segment.val.text)).1 := by
  induction segments with
  | nil =>
      intro state h
      exact h
  | cons segment segments ih =>
      intro state h
      have hnext := h.coverSegment files segment
      rw [List.map_cons, SidecarProcess.coverSegments]
      generalize process.coverSegment root files state segment.val.text = outcome at hnext ⊢
      rcases outcome with ⟨next, _ | error⟩
      · exact ih hnext
      · exact hnext

end SidecarProcess

end OpenStreamGrid
