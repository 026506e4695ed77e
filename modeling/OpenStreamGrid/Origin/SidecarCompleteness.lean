import Mathlib.Data.Set.Basic
import OpenStreamGrid.Origin.SidecarCoverage

/-!
# Sidecar passes are complete

A pass over a tree that nobody else changes either returns, with the listed segments
covered, the orphans gone and nothing left for a second pass, or it throws at a
directory that stands in the way. Its calls stay inside the root in any case.
-/

namespace OpenStreamGrid

/-- A playlist of the tree lists the segment. -/
def Listed (process : SidecarProcess) (root : AbsolutePath) (tree : FileTree)
    (segment : AbsolutePath) : Prop :=
  ∃ playlist contents, root.Below playlist ∧ ".m3u8".toList <:+ playlist.text ∧
    tree.find? playlist = some (.file contents) ∧
    segment.text ∈ playlistSegmentFiles process.cwd (process.utf8 contents) playlist.text root.text

/-- The sidecar of a media segment that is not in the tree. -/
def Orphan (root : AbsolutePath) (tree : FileTree) (path : AbsolutePath) : Prop :=
  root.Below path ∧ HasFile tree path ∧ ∃ segment, path.text = sidecarOf segment ∧
    isMediaSegmentFile segment = true ∧
    ∀ path' : AbsolutePath, root.Below path' → path'.text = segment → ¬ HasFile tree path'

namespace SidecarProcess

variable {root : AbsolutePath} {process : SidecarProcess}

/-! ## The files and what they list -/

theorem readdir_directory {tree : FileTree} (h : tree.find? root = some .directory) :
    tree.readdir root = .ok (tree.entries.entries.filter fun entry => root.Below entry.1) := by
  unfold FileTree.readdir
  rw [h]

theorem mem_filesOf {tree : FileTree} {entries : List (AbsolutePath × FileEntry)}
    (h : tree.readdir root = .ok entries) {file : List Char} :
    file ∈ filesOf entries ↔ ∃ path, root.Below path ∧ HasFile tree path ∧ file = path.text := by
  have hentries : entries = tree.entries.entries.filter fun entry => root.Below entry.1 := by
    unfold FileTree.readdir at h
    split at h
    · injection h with h
      exact h.symm
    · exact nomatch h
    · exact nomatch h
  have hget : ∀ {path : AbsolutePath}, root.Below path → ∀ entry,
      (path, entry) ∈ tree.entries.entries ↔ tree.find? path = some entry := by
    intro path hbelow entry
    rw [FileTree.find?, entryAt, if_neg hbelow.ne_nil, OrderedMap.get?_eq_some_iff]
  unfold filesOf
  rw [OrderedSet.mem_ofList, hentries]
  simp only [List.mem_map, List.mem_filter, decide_eq_true_eq, Prod.exists]
  constructor
  · rintro ⟨path, entry, ⟨⟨hentry, hbelow⟩, hfile⟩, rfl⟩
    cases entry with
    | directory => exact absurd hfile Bool.false_ne_true
    | file contents => exact ⟨path, hbelow, ⟨contents, (hget hbelow _).mp hentry⟩, rfl⟩
  · rintro ⟨path, hbelow, ⟨contents, hcontents⟩, rfl⟩
    exact ⟨path, .file contents, ⟨⟨(hget hbelow _).mpr hcontents, hbelow⟩, rfl⟩, rfl⟩

theorem filesBelow_filesOf {tree : FileTree} {entries : List (AbsolutePath × FileEntry)}
    (h : tree.readdir root = .ok entries) : FilesBelow root tree (filesOf entries) := by
  intro path hbelow
  rw [mem_filesOf h]
  constructor
  · rintro ⟨path', -, hfile, htext⟩
    rwa [AbsolutePath.text_injective htext]
  · exact fun hfile => ⟨path, hbelow, hfile, rfl⟩

/-- A set of texts of paths is the texts of a list of paths. -/
theorem exists_map_text {α : Type} {text : α → List Char} {files : OrderedSet (List Char)}
    (h : ∀ file ∈ files, ∃ path, file = text path) :
    ∃ paths : List α, files.toList = paths.map text := by
  have hrange : files.toList ∈ Set.range (List.map text) := by
    rw [Set.range_list_map]
    rintro file hfile
    obtain ⟨path, rfl⟩ := h file hfile
    exact ⟨path, rfl⟩
  obtain ⟨paths, hpaths⟩ := hrange
  exact ⟨paths, hpaths.symm⟩

/-- Membership in what a loop over the files collects. -/
theorem mem_foldl_insertAll {α β : Type} [DecidableEq β] (collect : α → List β) (xs : List α)
    (b : β) : ∀ set : OrderedSet β,
    b ∈ xs.foldl (fun set x => set.insertAll (collect x)) set ↔
      b ∈ set ∨ ∃ x ∈ xs, b ∈ collect x := by
  induction xs with
  | nil => intro set; simp
  | cons x xs ih =>
      intro set
      rw [List.foldl_cons, ih, OrderedSet.mem_insertAll, List.exists_mem_cons_iff, or_assoc]

/-- What the pass takes from one file. -/
def listedBy (process : SidecarProcess) (root : List Char) (tree : FileTree) (file : List Char) :
    List (List Char) :=
  if ".m3u8".toList.isSuffixOf file then
    match tree.readFile (process.cwd.resolve file) with
    | .error _ => []
    | .ok contents => playlistSegmentFiles process.cwd (process.utf8 contents) file root
  else []

theorem mem_listedBy {root' : List Char} {tree : FileTree} {playlist : AbsolutePath}
    {segment : List Char} : segment ∈ process.listedBy root' tree playlist.text ↔
      ".m3u8".toList <:+ playlist.text ∧ ∃ contents,
        tree.find? playlist = some (.file contents) ∧
        segment ∈ playlistSegmentFiles process.cwd (process.utf8 contents) playlist.text root' := by
  unfold listedBy
  rw [← List.isSuffixOf_iff_suffix, AbsolutePath.resolve_text]
  split_ifs with hplaylist
  · cases hread : tree.readFile playlist with
    | error error =>
        refine iff_of_false List.not_mem_nil ?_
        rintro ⟨-, contents, hcontents, -⟩
        rw [FileTree.readFile_of_file hcontents] at hread
        exact nomatch hread
    | ok contents =>
        have hcontents := FileTree.file_of_readFile hread
        constructor
        · exact fun h => ⟨hplaylist, contents, hcontents, h⟩
        · rintro ⟨-, bytes, hbytes, h⟩
          rw [hcontents] at hbytes
          obtain rfl : contents = bytes := FileEntry.file.inj (Option.some.inj hbytes)
          exact h
  · exact iff_of_false List.not_mem_nil fun h => hplaylist h.1

theorem mem_listedSegments {tree : FileTree} {entries : List (AbsolutePath × FileEntry)}
    (h : tree.readdir root = .ok entries) {segment : List Char} :
    segment ∈ process.listedSegments root.text tree (filesOf entries) ↔
      ∃ playlist contents, root.Below playlist ∧ ".m3u8".toList <:+ playlist.text ∧
        tree.find? playlist = some (.file contents) ∧ segment ∈
          playlistSegmentFiles process.cwd (process.utf8 contents) playlist.text root.text := by
  have hloop : process.listedSegments root.text tree (filesOf entries)
      = (filesOf entries).toList.foldl
          (fun listed file => listed.insertAll (process.listedBy root.text tree file)) ∅ := by
    unfold listedSegments
    congr 1
    funext listed file
    unfold listedBy
    split_ifs
    · cases tree.readFile (process.cwd.resolve file) with
      | error error => rfl
      | ok contents => rfl
    · rfl
  rw [hloop, mem_foldl_insertAll]
  constructor
  · rintro (hempty | ⟨file, hfile, hlisted⟩)
    · exact absurd hempty (OrderedSet.not_mem_empty _)
    · obtain ⟨playlist, hbelow, -, rfl⟩ := (mem_filesOf h).mp hfile
      obtain ⟨hplaylist, contents, hcontents, hsegment⟩ := mem_listedBy.mp hlisted
      exact ⟨playlist, contents, hbelow, hplaylist, hcontents, hsegment⟩
  · rintro ⟨playlist, contents, hbelow, hplaylist, hcontents, hsegment⟩
    refine Or.inr ⟨playlist.text, (mem_filesOf h).mpr ?_, ?_⟩
    · exact ⟨playlist, hbelow, ⟨contents, hcontents⟩, rfl⟩
    · exact mem_listedBy.mpr ⟨hplaylist, contents, hcontents, hsegment⟩

/-- The listed segments as paths below the root. -/
theorem exists_segments (process : SidecarProcess) {tree : FileTree}
    {entries : List (AbsolutePath × FileEntry)}
    (hroot : root ≠ []) (h : tree.readdir root = .ok entries) :
    ∃ segments : List (SegmentPath root), segments.Nodup ∧
      (process.listedSegments root.text tree (filesOf entries)).toList
        = segments.map (fun segment => segment.val.text) ∧
      ∀ segment : SegmentPath root,
        segment ∈ segments ↔ Listed process root tree segment.val := by
  have htext : ∀ file ∈ process.listedSegments root.text tree (filesOf entries),
      ∃ segment : SegmentPath root, file = segment.val.text := by
    intro file hfile
    obtain ⟨playlist, contents, -, -, -, hlisted⟩ := (mem_listedSegments h).mp hfile
    have hresolve : process.cwd.resolve root.text ≠ [] := by
      rwa [AbsolutePath.resolve_text]
    -- What a playlist lists is resolved and checked to lie inside the root.
    obtain ⟨path, rfl, hbelow, hsegment⟩ := below_of_mem_playlistSegmentFiles hresolve hlisted
    rw [AbsolutePath.resolve_text] at hbelow
    exact ⟨⟨path, hbelow, hsegment⟩, rfl⟩
  obtain ⟨segments, hsegments⟩ := exists_map_text htext
  refine ⟨segments, ?_, hsegments, fun segment => ?_⟩
  · refine List.Nodup.of_map (fun segment => segment.val.text) ?_
    rw [← hsegments]
    exact (process.listedSegments root.text tree (filesOf entries)).nodup
  · have hmem : segment ∈ segments ↔
        segment.val.text ∈ process.listedSegments root.text tree (filesOf entries) := by
      rw [← OrderedSet.mem_toList, hsegments, List.mem_map]
      constructor
      · exact fun hsegment => ⟨segment, hsegment, rfl⟩
      · rintro ⟨segment', hsegment', htext'⟩
        rwa [← Subtype.ext (AbsolutePath.text_injective htext')]
    rw [hmem, mem_listedSegments h]
    rfl

/-! ## The orphans -/

theorem isOrphan_iff {tree : FileTree} {entries : List (AbsolutePath × FileEntry)}
    (h : tree.readdir root = .ok entries) {path : AbsolutePath} :
    path.text ∈ filesOf entries ∧ isOrphan (filesOf entries) path.text = true ↔
      Orphan root tree path := by
  have hpath : path.text ∈ filesOf entries ↔ root.Below path ∧ HasFile tree path := by
    rw [mem_filesOf h]
    constructor
    · rintro ⟨path', hbelow, hfile, htext⟩
      rw [AbsolutePath.text_injective htext]
      exact ⟨hbelow, hfile⟩
    · exact fun hpath => ⟨path, hpath.1, hpath.2, rfl⟩
  have habsent : ∀ segment, segment ∉ filesOf entries ↔
      ∀ path' : AbsolutePath, root.Below path' → path'.text = segment → ¬ HasFile tree path' := by
    intro segment
    rw [mem_filesOf h]
    constructor
    · exact fun hnone path' hbelow htext hfile => hnone ⟨path', hbelow, hfile, htext.symm⟩
    · rintro hnone ⟨path', hbelow, hfile, rfl⟩
      exact hnone path' hbelow rfl hfile
  unfold isOrphan
  rw [hpath, Bool.and_eq_true, Bool.and_eq_true, List.isSuffixOf_iff_suffix, decide_eq_true_eq,
    habsent]
  constructor
  · rintro ⟨⟨hbelow, hfile⟩, ⟨⟨segment, htext⟩, hsegment⟩, hnone⟩
    rw [← htext, List.rdrop_append_length] at hsegment hnone
    exact ⟨hbelow, hfile, segment, htext.symm, hsegment, hnone⟩
  · rintro ⟨hbelow, hfile, segment, htext, hsegment, hnone⟩
    rw [htext, sidecarOf, List.rdrop_append_length]
    exact ⟨⟨hbelow, hfile⟩, ⟨List.suffix_append _ _, hsegment⟩, hnone⟩

/-- One round of the second loop takes its file away if it is an orphan. -/
theorem find?_pruneFile (files : OrderedSet (List Char)) (state : PassState)
    (path path' : AbsolutePath)
    (hfile : isOrphan files path.text = true → state.tree.find? path ≠ some .directory) :
    (process.pruneFile root files state path.text).tree.find? path'
      = if path' = path ∧ isOrphan files path.text = true then none
        else state.tree.find? path' := by
  unfold pruneFile
  by_cases horphan : isOrphan files path.text = true
  · rw [if_pos horphan]
    show (process.unlink state path.text).tree.find? path' = _
    rw [find?_unlink]
    exact if_congr (and_congr_right fun _ => iff_of_true (hfile horphan) horphan) rfl rfl
  · rw [if_neg horphan, if_neg fun h => horphan h.2]

theorem find?_foldl_pruneFile (process : SidecarProcess) (root : AbsolutePath)
    (files : OrderedSet (List Char)) (paths : List AbsolutePath) :
    ∀ state : PassState, (∀ path ∈ paths, isOrphan files path.text = true →
      state.tree.find? path ≠ some .directory) →
    ∀ path, ((paths.map AbsolutePath.text).foldl (process.pruneFile root files) state).tree.find?
        path
      = if path ∈ paths ∧ isOrphan files path.text = true then none
        else state.tree.find? path := by
  induction paths with
  | nil =>
      intro state _ path
      rw [if_neg fun h => List.not_mem_nil h.1]
      rfl
  | cons pruned paths ih =>
      intro state hfiles path
      have hpruned : ∀ path', (process.pruneFile root files state pruned.text).tree.find? path'
          = if path' = pruned ∧ isOrphan files pruned.text = true then none
            else state.tree.find? path' := fun path' =>
        find?_pruneFile files state pruned path' (hfiles pruned List.mem_cons_self)
      rw [List.map_cons, List.foldl_cons, ih, hpruned]
      · by_cases hpath : path = pruned
        · subst hpath
          by_cases horphan : isOrphan files path.text = true
          · simp [horphan]
          · simp [horphan]
        · simp [hpath]
      · intro path' hpath' horphan
        rw [hpruned]
        split_ifs
        · exact nofun
        · exact hfiles path' (List.mem_cons_of_mem _ hpath') horphan

/-! ## The pass -/

/-- How a pass ends: it returns after both loops, or it throws where the first one stopped. -/
inductive PassOutcome (process : SidecarProcess) (root : AbsolutePath) (before : FileTree) :
    FileTree → Except FileError SidecarPassResult → Prop
  | returned {covered after : FileTree} {result : SidecarPassResult} :
      Wrote process before covered {segment : SegmentPath root |
        Listed process root before segment.val ∧ Missing before segment} →
      (∀ segment : SegmentPath root, Listed process root before segment.val →
        Missing before segment → ¬ Blocked process.pid before segment) →
      (∀ path, Orphan root before path → after.find? path = none) →
      (∀ path, ¬ Orphan root before path → after.find? path = covered.find? path) →
      PassOutcome process root before after (.ok result)
  | threw {reached after : FileTree} {done : Set (SegmentPath root)} {segment : SegmentPath root} :
      Wrote process before reached done → (∀ written ∈ done, Missing before written) →
      Listed process root before segment.val → Missing before segment →
      Blocked process.pid before segment →
      (∀ path, after.find? path = reached.find? path ∨
        path = segment.temporary process.pid ∧ after.find? path = none) →
      PassOutcome process root before after (.error .isDirectory)

theorem writeSidecars_outcome {root : List Char} {tree : FileTree}
    (hroot : process.cwd.resolve root ≠ [])
    (hdirectory : tree.find? (process.cwd.resolve root) = some .directory) :
    PassOutcome process (process.cwd.resolve root) tree
      (process.writeSidecars tree root).1.tree (process.writeSidecars tree root).2 := by
  have hread := readdir_directory hdirectory
  generalize (tree.entries.entries.filter fun entry =>
    (process.cwd.resolve root).Below entry.1) = entries at hread
  obtain ⟨segments, hnodup, hlisted, hmem⟩ := exists_segments process hroot hread
  have hnone : {segment : SegmentPath (process.cwd.resolve root) |
      segment ∈ [] ∧ Missing tree segment} = ∅ :=
    Set.eq_empty_of_forall_notMem fun segment h => List.not_mem_nil h.1
  have hcover := coverSegments_outcome process (filesBelow_filesOf hread) segments []
    (PassState.start tree) hnodup (hnone ▸ Wrote.refl process tree) nofun
  simp only [writeSidecars, hread, hlisted]
  rw [List.nil_append] at hcover
  generalize process.coverSegments (process.cwd.resolve root) (filesOf entries)
    (PassState.start tree) (segments.map fun segment => segment.val.text) = outcome at hcover ⊢
  rcases outcome with ⟨state, _ | error⟩
  · cases hcover with
    | finished hwrote hfree =>
        have hset : {segment | segment ∈ segments ∧ Missing tree segment}
            = {segment : SegmentPath (process.cwd.resolve root) |
                Listed process (process.cwd.resolve root) tree segment.val ∧
                  Missing tree segment} := by
          ext segment
          exact and_congr_left' (hmem segment)
        rw [hset] at hwrote
        obtain ⟨paths, hpaths⟩ := exists_map_text fun file hfile => by
          obtain ⟨path, -, -, htext⟩ := (mem_filesOf hread).mp hfile
          exact ⟨path, htext⟩
        have hpath : ∀ path, path ∈ paths ↔ path.text ∈ filesOf entries := by
          intro path
          rw [← OrderedSet.mem_toList, hpaths, List.mem_map]
          constructor
          · exact fun h => ⟨path, h, rfl⟩
          · rintro ⟨path', h, htext⟩
            rwa [← AbsolutePath.text_injective htext]
        have horphan : ∀ path, path ∈ paths ∧ isOrphan (filesOf entries) path.text = true ↔
            Orphan (process.cwd.resolve root) tree path := by
          intro path
          rw [hpath, isOrphan_iff hread]
        have hpruned := find?_foldl_pruneFile process (process.cwd.resolve root)
          (filesOf entries) paths state ?_
        · refine .returned hwrote (fun segment hsegment => hfree segment ((hmem _).mpr hsegment))
            (fun path h => ?_) fun path h => ?_
          · rw [hpaths, hpruned, if_pos ((horphan path).mpr h)]
          · rw [hpaths, hpruned, if_neg (mt (horphan path).mp h)]
        · intro path hmem' horphan'
          obtain ⟨-, ⟨contents, hcontents⟩, -⟩ := (horphan path).mp ⟨hmem', horphan'⟩
          rcases hwrote.find?_cases (fun segment h => h.2) path with hsame | hgone | hwritten
          · rw [hsame, hcontents]
            exact nofun
          · rw [hgone]
            exact nofun
          · obtain ⟨_, _, _, _, _, hnew⟩ := hwritten
            rw [hnew]
            exact nofun
  · cases hcover with
    | stopped hwrote hdone hsegment hmissing hblocked hstopped =>
        exact .threw hwrote hdone ((hmem _).mp hsegment) hmissing hblocked hstopped

/-! ## After a pass that returns -/

/-- What the tree is after a pass that returned: the listed segments are covered, no sidecar
stands alone, and a second pass finds nothing to do. -/
structure PassComplete (process : SidecarProcess) (root : List Char) (before after : FileTree) :
    Prop where
  covered : ∀ segment : SegmentPath (process.cwd.resolve root),
    Listed process (process.cwd.resolve root) before segment.val → HasFile before segment.val →
      HasFile after segment.val ∧ HasFile after segment.sidecar
  noOrphan : ∀ path, ¬ Orphan (process.cwd.resolve root) after path
  idle : ∀ pid, ({ process with pid := pid }).writeSidecars after root
    = (PassState.start after, .ok ⟨[], []⟩)

section Returned

variable {before covered after : FileTree}
  (hwrote : Wrote process before covered {segment : SegmentPath root |
    Listed process root before segment.val ∧ Missing before segment})
  (horphan : ∀ path, Orphan root before path → after.find? path = none)
  (hother : ∀ path, ¬ Orphan root before path → after.find? path = covered.find? path)

/-- An orphan ends as a sidecar does. -/
theorem getLast?_of_orphan {tree : FileTree} {path : AbsolutePath} (h : Orphan root tree path) :
    path.text.getLast? = some '6' := by
  obtain ⟨-, -, segment, htext, -⟩ := h
  rw [htext]
  exact SegmentPath.getLast?_of_suffix (by decide) (List.suffix_append _ SIDECAR_SUFFIX)

include hwrote hother in
/-- What ends otherwise than sidecars and temporary files do is as before. -/
theorem find?_returned {path : AbsolutePath} {c : Char} (hlast : path.text.getLast? = some c)
    (hsidecar : c ≠ '6') (htemporary : c ≠ 'p') : after.find? path = before.find? path := by
  have hkept : ¬ Orphan root before path := by
    intro h
    rw [getLast?_of_orphan h] at hlast
    exact hsidecar (Option.some.inj hlast).symm
  rw [hother path hkept, hwrote.find?_of_getLast? hlast hsidecar htemporary]

include hwrote hother in
theorem listed_returned (segment : AbsolutePath) :
    Listed process root after segment ↔ Listed process root before segment := by
  have hplaylist : ∀ playlist : AbsolutePath, ".m3u8".toList <:+ playlist.text →
      after.find? playlist = before.find? playlist := by
    intro playlist h
    have hlast := SegmentPath.getLast?_of_suffix (by decide) h
    exact find?_returned hwrote hother hlast (by decide) (by decide)
  unfold Listed
  refine exists_congr fun playlist => exists_congr fun contents => and_congr_right fun _ =>
    and_congr_right fun h => ?_
  rw [hplaylist playlist h]

include hwrote hother in
theorem hasFile_returned (segment : SegmentPath root) :
    HasFile after segment.val ↔ HasFile before segment.val := by
  unfold HasFile
  rw [find?_returned hwrote hother segment.getLast?_segment (by decide) (by decide)]

include hwrote hother in
theorem covered_returned {segment : SegmentPath root}
    (hlisted : Listed process root before segment.val) (hfile : HasFile before segment.val) :
    HasFile after segment.sidecar := by
  have hkept : ¬ Orphan root before segment.sidecar := by
    -- Its segment is there, so the second loop leaves the sidecar alone.
    rintro ⟨-, -, stem, htext, -, hnone⟩
    rw [segment.text_sidecar] at htext
    exact hnone segment.val segment.property.1 (List.append_cancel_right htext) hfile
  obtain ⟨contents, hcontents⟩ := hfile
  unfold HasFile
  rw [hother _ hkept]
  by_cases hsidecar : HasFile before segment.sidecar
  · rwa [hwrote.find?_sidecar fun h => h.2.2 hsidecar]
  · exact ⟨_, hwrote.sidecar segment ⟨hlisted, ⟨contents, hcontents⟩, hsidecar⟩ contents hcontents⟩

include hwrote horphan hother in
theorem noOrphan_returned (path : AbsolutePath) : ¬ Orphan root after path := by
  rintro ⟨hbelow, ⟨contents, hcontents⟩, stem, htext, hstem, hnone⟩
  have hkept : ¬ Orphan root before path := by
    intro h
    rw [horphan path h] at hcontents
    exact nomatch hcontents
  rw [hother path hkept] at hcontents
  rcases hwrote.find?_cases (fun segment h => h.2) path with hsame | hgone | hwritten
  · -- It was there before: so was its segment, and segments stay.
    refine hkept ⟨hbelow, ⟨contents, hsame ▸ hcontents⟩, stem, htext, hstem, ?_⟩
    rintro segment hsegment rfl hfile
    exact hnone segment hsegment rfl
      ((hasFile_returned hwrote hother ⟨segment, hsegment, hstem⟩).mpr hfile)
  · -- A temporary file that is gone again.
    rw [hgone] at hcontents
    exact nomatch hcontents
  · -- A sidecar written in this pass: its segment was there and stays.
    obtain ⟨segment, ⟨-, hmissing⟩, rfl, -⟩ := hwritten
    rw [segment.text_sidecar] at htext
    exact hnone segment.val segment.property.1 (List.append_cancel_right htext)
      ((hasFile_returned hwrote hother segment).mpr hmissing.1)

end Returned

/-! ## A pass with nothing to do -/

theorem coverSegments_idle {files : OrderedSet (List Char)} (state : PassState)
    {segments : List (List Char)}
    (h : ∀ segment ∈ segments, segment ∉ files ∨ sidecarOf segment ∈ files) :
    process.coverSegments root files state segments = (state, none) := by
  induction segments with
  | nil => rfl
  | cons segment segments ih =>
      rw [coverSegments, coverSegment_skip (h segment List.mem_cons_self)]
      exact ih fun segment' hsegment' => h segment' (List.mem_cons_of_mem _ hsegment')

theorem foldl_pruneFile_idle {files : OrderedSet (List Char)} (state : PassState)
    {pruned : List (List Char)} (h : ∀ file ∈ pruned, ¬ isOrphan files file = true) :
    pruned.foldl (process.pruneFile root files) state = state := by
  induction pruned with
  | nil => rfl
  | cons file pruned ih =>
      have hfile : process.pruneFile root files state file = state :=
        if_neg (h file List.mem_cons_self)
      rw [List.foldl_cons, hfile]
      exact ih fun file' hfile' => h file' (List.mem_cons_of_mem _ hfile')

theorem writeSidecars_idle {root : List Char} {tree : FileTree}
    (hroot : process.cwd.resolve root ≠ [])
    (hdirectory : tree.find? (process.cwd.resolve root) = some .directory)
    (hcovered : ∀ segment : SegmentPath (process.cwd.resolve root),
      Listed process (process.cwd.resolve root) tree segment.val → ¬ Missing tree segment)
    (hnone : ∀ path, ¬ Orphan (process.cwd.resolve root) tree path) :
    process.writeSidecars tree root = (PassState.start tree, .ok ⟨[], []⟩) := by
  obtain ⟨entries, hread⟩ : ∃ entries, tree.readdir (process.cwd.resolve root) = .ok entries :=
    ⟨_, readdir_directory hdirectory⟩
  obtain ⟨segments, -, hlisted, hmem⟩ := exists_segments process hroot hread
  have hcover : process.coverSegments (process.cwd.resolve root) (filesOf entries)
      (PassState.start tree) (segments.map fun segment => segment.val.text)
        = (PassState.start tree, none) := by
    refine coverSegments_idle _ fun file hfile => ?_
    obtain ⟨segment, hsegment, rfl⟩ := List.mem_map.mp hfile
    have hpresent := hcovered segment ((hmem segment).mp hsegment)
    rw [missing_iff (filesBelow_filesOf hread), not_and_or, not_not] at hpresent
    exact hpresent
  have hprune : (filesOf entries).toList.foldl
      (process.pruneFile (process.cwd.resolve root) (filesOf entries)) (PassState.start tree)
        = PassState.start tree := by
    refine foldl_pruneFile_idle _ fun file hfile horphan => ?_
    obtain ⟨path, -, -, rfl⟩ := (mem_filesOf hread).mp hfile
    exact hnone path ((isOrphan_iff hread).mp ⟨hfile, horphan⟩)
  simp only [writeSidecars, hread, hlisted, hcover, hprune]
  rfl

/-! ## Every pass -/

theorem Confined.prune (files : OrderedSet (List Char)) (paths : List AbsolutePath)
    (hpaths : ∀ path ∈ paths, root.Below path) : ∀ {state : PassState},
    Confined process root state → Confined process root
      ((paths.map AbsolutePath.text).foldl (process.pruneFile root files) state) := by
  induction paths with
  | nil =>
      intro state h
      exact h
  | cons path paths ih =>
      intro state h
      refine ih (fun path' hpath' => hpaths path' (List.mem_cons_of_mem _ hpath')) ?_
      unfold pruneFile
      split_ifs
      · refine h.unlink ?_
        rw [AbsolutePath.resolve_text]
        exact hpaths path List.mem_cons_self
      · exact h

theorem writeSidecars_confined {root : List Char} {tree : FileTree}
    (hroot : process.cwd.resolve root ≠ []) :
    Confined process (process.cwd.resolve root) (process.writeSidecars tree root).1 := by
  have hstart : Confined process (process.cwd.resolve root) (PassState.start tree) :=
    fun call hcall => absurd hcall List.not_mem_nil
  cases hread : tree.readdir (process.cwd.resolve root) with
  | error error =>
      simp only [writeSidecars, hread]
      exact hstart
  | ok entries =>
      obtain ⟨segments, -, hlisted, -⟩ := exists_segments process hroot hread
      have hcover := hstart.coverSegments (filesOf entries) segments
      simp only [writeSidecars, hread, hlisted]
      generalize process.coverSegments (process.cwd.resolve root) (filesOf entries)
        (PassState.start tree) (segments.map fun segment => segment.val.text) = outcome
        at hcover ⊢
      rcases outcome with ⟨state, _ | error⟩
      · obtain ⟨paths, hpaths⟩ := exists_map_text fun file hfile => by
          obtain ⟨path, -, -, htext⟩ := (mem_filesOf hread).mp hfile
          exact ⟨path, htext⟩
        dsimp only
        rw [hpaths]
        refine hcover.prune (filesOf entries) _ fun path hpath => ?_
        have hfile : path.text ∈ filesOf entries := by
          rw [← OrderedSet.mem_toList, hpaths]
          exact List.mem_map_of_mem hpath
        obtain ⟨path', hbelow, -, htext⟩ := (mem_filesOf hread).mp hfile
        rwa [AbsolutePath.text_injective htext]
      · exact hcover

theorem complete_of_returned {root : List Char} {before covered after : FileTree}
    (hroot : process.cwd.resolve root ≠ [])
    (hdirectory : before.find? (process.cwd.resolve root) = some .directory)
    (hwrote : Wrote process before covered {segment : SegmentPath (process.cwd.resolve root) |
      Listed process (process.cwd.resolve root) before segment.val ∧ Missing before segment})
    (horphan : ∀ path, Orphan (process.cwd.resolve root) before path → after.find? path = none)
    (hother : ∀ path, ¬ Orphan (process.cwd.resolve root) before path →
      after.find? path = covered.find? path) : PassComplete process root before after where
  covered segment hlisted hfile :=
    ⟨(hasFile_returned hwrote hother segment).mpr hfile,
      covered_returned hwrote hother hlisted hfile⟩
  noOrphan := noOrphan_returned hwrote horphan hother
  idle pid := by
    have hkept : after.find? (process.cwd.resolve root) = some .directory := by
      have hself : ∀ path : AbsolutePath, (process.cwd.resolve root).Below path →
          process.cwd.resolve root ≠ path := fun path hbelow heq => hbelow.2 heq.symm
      rw [hother _ fun h => h.1.2 rfl, hwrote.other, hdirectory]
      intro segment _
      exact ⟨hself _ segment.below_sidecar, hself _ (segment.below_temporary _)⟩
    refine writeSidecars_idle hroot hkept (fun segment hlisted hmissing => ?_)
      (noOrphan_returned hwrote horphan hother)
    -- The process identifier names temporary files only, so the second pass lists the same.
    have hlisted' : Listed process (process.cwd.resolve root) after segment.val := hlisted
    rw [listed_returned hwrote hother] at hlisted'
    exact hmissing.2 (covered_returned hwrote hother hlisted'
      ((hasFile_returned hwrote hother segment).mp hmissing.1))

/-- **Sidecar passes**: every path hashed or written lies inside the root, and every new file is
the sidecar of a segment and holds its hash. A pass over a tree with no directory in the way of a
missing sidecar returns, with everything done; it throws where there is one. -/
theorem writeSidecars_complete (process : SidecarProcess) (tree : FileTree) (root : List Char)
    (hroot : process.cwd.resolve root ≠ [])
    (hdirectory : tree.find? (process.cwd.resolve root) = some .directory) :
    Confined process (process.cwd.resolve root) (process.writeSidecars tree root).1 ∧
    (∀ path, (process.writeSidecars tree root).1.tree.find? path = tree.find? path ∨
      (process.writeSidecars tree root).1.tree.find? path = none ∨
      ∃ (segment : SegmentPath (process.cwd.resolve root)) (contents : List UInt8),
        path = segment.sidecar ∧ tree.find? segment.val = some (.file contents) ∧
          (process.writeSidecars tree root).1.tree.find? path
            = some (.file (process.sidecarContents segment.val.text contents))) ∧
    ((∀ segment : SegmentPath (process.cwd.resolve root),
        Listed process (process.cwd.resolve root) tree segment.val → Missing tree segment →
          ¬ Blocked process.pid tree segment) →
      (∃ result, (process.writeSidecars tree root).2 = .ok result) ∧
        PassComplete process root tree (process.writeSidecars tree root).1.tree) ∧
    ((∃ segment : SegmentPath (process.cwd.resolve root),
        Listed process (process.cwd.resolve root) tree segment.val ∧ Missing tree segment ∧
          Blocked process.pid tree segment) →
      (process.writeSidecars tree root).2 = .error .isDirectory) := by
  refine ⟨writeSidecars_confined hroot, ?_⟩
  have houtcome := writeSidecars_outcome hroot hdirectory
  generalize (process.writeSidecars tree root).1.tree = after at houtcome ⊢
  generalize (process.writeSidecars tree root).2 = result at houtcome ⊢
  cases houtcome with
  | returned hwrote hfree horphan hother =>
      refine ⟨fun path => ?_, fun _ => ⟨⟨_, rfl⟩, ?_⟩, ?_⟩
      · by_cases hpath : Orphan (process.cwd.resolve root) tree path
        · exact Or.inr (Or.inl (horphan path hpath))
        · rw [hother path hpath]
          rcases hwrote.find?_cases (fun segment h => h.2) path with hsame | hgone | hwritten
          · exact Or.inl hsame
          · exact Or.inr (Or.inl hgone)
          · obtain ⟨segment, -, hsidecar, contents, hcontents, hnew⟩ := hwritten
            exact Or.inr (Or.inr ⟨segment, contents, hsidecar, hcontents, hnew⟩)
      · exact complete_of_returned hroot hdirectory hwrote horphan hother
      · rintro ⟨segment, hlisted, hmissing, hblocked⟩
        exact absurd hblocked (hfree segment hlisted hmissing)
  | threw hwrote hdone hlisted hmissing hblocked hstopped =>
      refine ⟨fun path => ?_, fun hfree => ?_, fun _ => rfl⟩
      · rcases hstopped path with hreached | ⟨-, hgone⟩
        · rw [hreached]
          rcases hwrote.find?_cases hdone path with hsame | hgone | hwritten
          · exact Or.inl hsame
          · exact Or.inr (Or.inl hgone)
          · obtain ⟨segment, -, hsidecar, contents, hcontents, hnew⟩ := hwritten
            exact Or.inr (Or.inr ⟨segment, contents, hsidecar, hcontents, hnew⟩)
        · exact Or.inr (Or.inl hgone)
      · exact absurd hblocked (hfree _ hlisted hmissing)

/-! A directory with one segment of no bytes. -/

def hlsName : FileName := ⟨"hls".toList, by decide⟩

def streamName : FileName := ⟨"stream.m3u8".toList, by decide⟩

def segmentName : FileName := ⟨"a.ts".toList, by decide⟩

def sidecarName : FileName := ⟨"a.ts.sha256".toList, by decide⟩

def orphanName : FileName := ⟨"b.ts.sha256".toList, by decide⟩

/-- A process that hashes the file of no bytes and reads ASCII. -/
def emptyFileProcess : SidecarProcess where
  sha256 _ := hexBytes "e3b0c44298fc1c149afbf4c8996fb92427ae41e4649b934ca495991b7852b855".toList
  utf8 bytes := bytes.map fun byte => Char.ofNat byte.toNat
  pid := 7
  cwd := []

def orphanTree : FileTree where
  entries := ⟨[([hlsName], .directory),
    ([hlsName, streamName], .file ("a.ts".toList.flatMap String.utf8EncodeChar)),
    ([hlsName, segmentName], .file []), ([hlsName, orphanName], .file [])], by decide⟩
  placed := by decide

theorem writeSidecars_complete_orphanTree :
    (∃ result, (emptyFileProcess.writeSidecars orphanTree "/hls".toList).2 = .ok result) ∧
      PassComplete emptyFileProcess "/hls".toList orphanTree
        (emptyFileProcess.writeSidecars orphanTree "/hls".toList).1.tree := by
  have hroot : emptyFileProcess.cwd.resolve "/hls".toList = [hlsName] := by decide +kernel
  refine (writeSidecars_complete emptyFileProcess orphanTree "/hls".toList
    (by decide +kernel) (by decide +kernel)).2.2.1 fun segment _ _ hblocked => ?_
  have hfree : ∀ path, AbsolutePath.Below (emptyFileProcess.cwd.resolve "/hls".toList) path →
      orphanTree.find? path ≠ some .directory := by
    intro path hbelow hentry
    rw [FileTree.find?, entryAt, if_neg hbelow.ne_nil, OrderedMap.get?_eq_some_iff] at hentry
    have hall : ∀ entry ∈ orphanTree.entries.entries, entry.2 = .directory →
        entry.1 = [hlsName] := by decide
    exact hbelow.2 ((hall _ hentry rfl).trans hroot.symm)
  rcases hblocked with hdirectory | hdirectory
  · exact hfree _ segment.below_sidecar hdirectory
  · exact hfree _ (segment.below_temporary _) hdirectory

def blockedTree : FileTree where
  entries := ⟨[([hlsName], .directory),
    ([hlsName, streamName], .file ("a.ts".toList.flatMap String.utf8EncodeChar)),
    ([hlsName, segmentName], .file []), ([hlsName, sidecarName], .directory)], by decide⟩
  placed := by decide

/-- A directory with the name of the sidecar leaves the listed segment without one. -/
theorem writeSidecars_blockedTree :
    emptyFileProcess.cwd.resolve "/hls".toList = [hlsName] ∧
    blockedTree.find? [hlsName] = some .directory ∧
    blockedTree.find? [hlsName, segmentName] = some (.file []) ∧
    Listed emptyFileProcess [hlsName] blockedTree [hlsName, segmentName] ∧
    (emptyFileProcess.writeSidecars blockedTree "/hls".toList).2 = .error .isDirectory ∧
    ¬ HasFile (emptyFileProcess.writeSidecars blockedTree "/hls".toList).1.tree
      [hlsName, sidecarName] := by
  refine ⟨by decide +kernel, by decide, by decide, ?_, by decide +kernel, ?_⟩
  · refine ⟨[hlsName, streamName], _, by decide, by decide, rfl, ?_⟩
    decide +kernel
  · have hentry : (emptyFileProcess.writeSidecars blockedTree "/hls".toList).1.tree.find?
        [hlsName, sidecarName] = some .directory := by decide +kernel
    rintro ⟨contents, hcontents⟩
    rw [hentry] at hcontents
    exact nomatch hcontents

end SidecarProcess

end OpenStreamGrid
