import OpenStreamGrid.Origin.AssetServing

/-!
# The hashes that are served

Two requests under different names of a segment may write its sidecar side by side,
under one temporary name. As long as the segment is left alone, others write only its
hash, and no request opens or renames the temporary file while another is writing it,
every sidecar that is served is a line with the hash of the segment. A request that
renames the file which another has just opened serves an empty one.
-/

namespace OpenStreamGrid

open Origin Program

namespace AssetServer

/-- A line with the hash of these bytes, under some name of the segment. -/
def IsHashLine (server : AssetServer) (contents line : List UInt8) : Prop :=
  ∃ segmentName, line = server.hashLine segmentName contents

def temporaryPath (server : AssetServer) (segment : AbsolutePath) : AbsolutePath :=
  segment.extend (temporarySuffix server.process.pid)

/-- The paths of the hash of a segment. -/
def IsHashPath (server : AssetServer) (segment path : AbsolutePath) : Prop :=
  path = segment.extend sidecarSuffix ∨ path = server.temporaryPath segment

/-- What stands at the two paths is the hash. -/
def Hashed (server : AssetServer) (segment : AbsolutePath) (contents : List UInt8)
    (tree : FileTree) : Prop :=
  ∀ path, server.IsHashPath segment path → ∀ line, tree.find? path = some (.file line) →
    server.IsHashLine contents line

end AssetServer

namespace OriginState

/-- A request is writing the file at the path. -/
def Writes (s : OriginState) (path : AbsolutePath) : Prop :=
  ∃ file ∈ s.writing, file.stands = some path

instance decidableWrites (s : OriginState) (path : AbsolutePath) : Decidable (s.Writes path) :=
  inferInstanceAs (Decidable (∃ file ∈ s.writing, file.stands = some path))

/-- The call opens or renames the file at the path only when no request is writing it, and does not
fail in the middle of writing it. -/
def Undisturbed (s : OriginState) (path : AbsolutePath) (index : ℕ)
    (circumstances : Circumstances) : AssetCall → Prop
  | .writeFile path' _ =>
      match s.file? index with
      | some file => file.stands = some path → circumstances.failure = none
      | none => path' = path → ¬ s.Writes path
  | .rename path' _ => path' = path → ¬ s.Writes path
  | _ => True

instance decidableUndisturbed (s : OriginState) (path : AbsolutePath) (index : ℕ)
    (circumstances : Circumstances) :
    ∀ op, Decidable (s.Undisturbed path index circumstances op)
  | .writeFile path' _ =>
      match h : s.file? index with
      | some file => decidable_of_iff (file.stands = some path → circumstances.failure = none)
          (by rw [Undisturbed, h])
      | none => decidable_of_iff (path' = path → ¬ s.Writes path) (by rw [Undisturbed, h])
  | .rename path' _ => inferInstanceAs (Decidable (path' = path → ¬ s.Writes path))
  | .stat _ | .access _ | .readFile _ | .pendingHash _ _ => isTrue trivial

end OriginState

namespace AssetServer

/-- Others leave the segment alone and write only its hash, and none touches the temporary file
while a request is writing it. -/
def KeepsHash (server : AssetServer) (segment : AbsolutePath) (contents : List UInt8)
    (s : OriginState) : OriginEvent → Prop
  | .request _ => True
  | .call index circumstances => ∀ run ∈ s.runs[index]?, ∀ op ∈ run.program.call?,
      s.Undisturbed (server.temporaryPath segment) index circumstances op
  | .change tree => tree.find? segment = s.tree.find? segment ∧
      ∀ path, server.IsHashPath segment path → tree.find? path = s.tree.find? path ∨
        ¬ s.Writes path ∧ ∀ line, tree.find? path = some (.file line) →
          server.IsHashLine contents line

/-- What a read of the segment or of its sidecar is answered. -/
def ReadsHash (server : AssetServer) (segment : AbsolutePath) (contents : List UInt8) :
    Exchange AssetCall AssetCall.Answer → Prop
  | ⟨.readFile path, .ok bytes⟩ => (path = segment → bytes = contents) ∧
      (path = segment.extend sidecarSuffix → server.IsHashLine contents bytes)
  | _ => True

variable {server : AssetServer} {segment : AbsolutePath} {contents : List UInt8}

/-! ## Steps -/

theorem sidecar_ne_temporary {segment' : AbsolutePath} (h : segment ≠ []) (h' : segment' ≠ [])
    (pid : ℕ) : segment.extend sidecarSuffix ≠ segment'.extend (temporarySuffix pid) :=
  SegmentPath.ne_of_getLast? (getLast?_extend_sidecarSuffix h)
    (getLast?_extend_temporarySuffix h' pid) (by decide)

/-- The paths of the hash of one segment are not those of another. -/
theorem IsHashPath.apart {segment' path : AbsolutePath} (h : server.IsHashPath segment path)
    (hne : segment ≠ []) (hne' : segment' ≠ []) (hother : segment' ≠ segment) :
    path ≠ server.temporaryPath segment' ∧ path ≠ segment'.extend sidecarSuffix := by
  have hextended (suffix : FileSuffix) : segment.extend suffix ≠ segment'.extend suffix :=
    fun heq => hother (AbsolutePath.extend_injective hne' hne heq.symm)
  rcases h with rfl | rfl
  · exact ⟨sidecar_ne_temporary hne hne' _, hextended _⟩
  · exact ⟨hextended _, (sidecar_ne_temporary hne' hne _).symm⟩

/-- Every request is writing one file at most. -/
def Distinct (writing : List OpenFile) : Prop :=
  ∀ file ∈ writing, ∀ file' ∈ writing, file.index = file'.index → file = file'

theorem file?_eq_none {s : OriginState} {index : ℕ} (h : s.file? index = none) :
    ∀ file ∈ s.writing, file.index ≠ index := by
  intro file hfile
  simpa using List.find?_eq_none.mp h file hfile

theorem distinct_exchange {s : OriginState} {index : ℕ} {circumstances : Circumstances}
    {op : AssetCall} {answer : Option op.Answer} {left : FileTree} {writing : List OpenFile}
    (h : s.exchange index circumstances op = (answer, left, writing))
    (hdistinct : Distinct s.writing) : Distinct writing := by
  rcases exchange_cases h with ⟨-, rfl⟩ | ⟨path, contents, -, hnone, -, rfl⟩ |
    ⟨-, -, -, -, -, -, rfl⟩ | ⟨path, path', -, -, rfl⟩
  · exact hdistinct
  · have hfresh := file?_eq_none hnone
    intro file hfile file' hfile' hsame
    rcases List.mem_append.mp hfile with hold | hnew <;>
      rcases List.mem_append.mp hfile' with hold' | hnew'
    · exact hdistinct file hold file' hold' hsame
    · obtain rfl := List.mem_singleton.mp hnew'
      exact absurd hsame (hfresh file hold)
    · obtain rfl := List.mem_singleton.mp hnew
      exact absurd hsame.symm (hfresh file' hold')
    · rw [List.mem_singleton.mp hnew, List.mem_singleton.mp hnew']
  · intro file hfile file' hfile' hsame
    exact hdistinct file (List.mem_filter.mp hfile).1 file' (List.mem_filter.mp hfile').1 hsame
  · intro file hfile file' hfile' hsame
    obtain ⟨before, hbefore, rfl⟩ := List.mem_map.mp hfile
    obtain ⟨before', hbefore', rfl⟩ := List.mem_map.mp hfile'
    rw [OpenFile.renamed_index, OpenFile.renamed_index] at hsame
    rw [hdistinct before hbefore before' hbefore' hsame]

/-- What stands at the two paths is the hash, but for a temporary file that is being written. -/
structure HashFiles (server : AssetServer) (segment : AbsolutePath) (contents : List UInt8)
    (s : OriginState) : Prop where
  hashed : ∀ path, server.IsHashPath segment path → ¬ s.Writes path → ∀ line,
    s.tree.find? path = some (.file line) → server.IsHashLine contents line
  sidecar : ¬ s.Writes (segment.extend sidecarSuffix)
  empty : s.Writes (server.temporaryPath segment) →
    s.tree.find? (server.temporaryPath segment) = some (.file [])
  lines : ∀ file ∈ s.writing, file.stands = some (server.temporaryPath segment) →
    server.IsHashLine contents file.contents
  /-- One request at most is writing the file. -/
  single : ∀ file ∈ s.writing, ∀ file' ∈ s.writing,
    file.stands = some (server.temporaryPath segment) →
      file'.stands = some (server.temporaryPath segment) → file.index = file'.index

variable {s s' : OriginState}

/-- A step that leaves both paths and the files standing there alone. -/
theorem HashFiles.apart (h : HashFiles server segment contents s)
    (htree : ∀ path, server.IsHashPath segment path → s'.tree.find? path = s.tree.find? path)
    (hwriting : ∀ path, server.IsHashPath segment path → ∀ file : OpenFile,
      file.stands = some path → (file ∈ s'.writing ↔ file ∈ s.writing)) :
    HashFiles server segment contents s' := by
  have hwrites : ∀ path, server.IsHashPath segment path → (s'.Writes path ↔ s.Writes path) :=
    fun path hpath => exists_congr fun file => and_congr_left (hwriting path hpath file)
  have htemporary := hwriting _ (Or.inr rfl)
  constructor
  · intro path hpath hunwritten line hline
    rw [htree path hpath] at hline
    exact h.hashed path hpath (fun hw => hunwritten ((hwrites path hpath).mpr hw)) line hline
  · exact fun hw => h.sidecar ((hwrites _ (Or.inl rfl)).mp hw)
  · intro hw
    rw [htree _ (Or.inr rfl)]
    exact h.empty ((hwrites _ (Or.inr rfl)).mp hw)
  · intro file hfile hstands
    exact h.lines file ((htemporary file hstands).mp hfile) hstands
  · intro file hfile file' hfile' hstands hstands'
    exact h.single file ((htemporary file hstands).mp hfile) file'
      ((htemporary file' hstands').mp hfile') hstands hstands'

/-- The temporary file is opened while nobody is writing it. -/
theorem HashFiles.opened (hne : segment ≠ []) (h : HashFiles server segment contents s)
    {index : ℕ} {line : List UInt8} (hline : server.IsHashLine contents line)
    (hunwritten : ¬ s.Writes (server.temporaryPath segment))
    (hwrite : s.tree.writeFile (server.temporaryPath segment) [] = .ok s'.tree)
    (hwriting : s'.writing = s.writing ++ [⟨index, line, some (server.temporaryPath segment)⟩]) :
    HashFiles server segment contents s' := by
  have hfiles : ∀ file ∈ s'.writing, file.stands = some (server.temporaryPath segment) →
      file = ⟨index, line, some (server.temporaryPath segment)⟩ := by
    intro file hfile hstands
    rw [hwriting] at hfile
    rcases List.mem_append.mp hfile with hold | hnew
    · exact absurd ⟨file, hold, hstands⟩ hunwritten
    · exact List.mem_singleton.mp hnew
  have hwritten : s'.Writes (server.temporaryPath segment) :=
    ⟨_, by rw [hwriting]; exact List.mem_concat_self, rfl⟩
  have hsidecar : ∀ path, path = segment.extend sidecarSuffix →
      path ≠ server.temporaryPath segment := by
    rintro path rfl
    exact sidecar_ne_temporary hne hne _
  constructor
  · rintro path (hpath | rfl) hunwritten' bytes hbytes
    · rw [FileTree.find?_of_writeFile hwrite (hsidecar path hpath)] at hbytes
      rw [hpath] at hbytes
      exact h.hashed _ (Or.inl rfl) h.sidecar bytes hbytes
    · exact absurd hwritten hunwritten'
  · rintro ⟨file, hfile, hstands⟩
    rw [hwriting] at hfile
    rcases List.mem_append.mp hfile with hold | hnew
    · exact h.sidecar ⟨file, hold, hstands⟩
    · obtain rfl := List.mem_singleton.mp hnew
      exact hsidecar _ rfl (Option.some.inj hstands).symm
  · exact fun _ => FileTree.find?_written hwrite
  · intro file hfile hstands
    rw [hfiles file hfile hstands]
    exact hline
  · intro file hfile file' hfile' hstands hstands'
    rw [hfiles file hfile hstands, hfiles file' hfile' hstands']

/-- The request that is writing the temporary file writes all of its line. -/
theorem HashFiles.written (hne : segment ≠ []) (h : HashFiles server segment contents s)
    {circumstances : Circumstances} {file : OpenFile} (hfile : file ∈ s.writing)
    (hstands : file.stands = some (server.temporaryPath segment))
    (hfailure : circumstances.failure = none)
    (htree : s'.tree = file.write circumstances s.tree)
    (hwriting : s'.writing = s.writing.filter fun file' => file'.index ≠ file.index) :
    HashFiles server segment contents s' := by
  have hunwritten : ¬ s'.Writes (server.temporaryPath segment) := by
    rintro ⟨file', hfile', hstands'⟩
    rw [hwriting, List.mem_filter] at hfile'
    refine of_decide_eq_true hfile'.2 (h.single file' hfile'.1 file hfile hstands' hstands)
  constructor
  · rintro path (rfl | rfl) hunwritten' bytes hbytes
    · rw [htree, OpenFile.find?_write] at hbytes
      · exact h.hashed _ (Or.inl rfl) h.sidecar bytes hbytes
      · rw [hstands, ne_eq, Option.some.injEq]
        exact (sidecar_ne_temporary hne hne _).symm
    · -- The file is empty, so all of it is the line.
      have hwhole := file.find?_write_empty hstands (h.empty ⟨file, hfile, hstands⟩) hfailure
      rw [htree] at hbytes
      rw [FileTree.file_inj hbytes hwhole]
      exact h.lines file hfile hstands
  · rintro ⟨file', hfile', hstands'⟩
    rw [hwriting, List.mem_filter] at hfile'
    exact h.sidecar ⟨file', hfile'.1, hstands'⟩
  · exact fun hw => absurd hw hunwritten
  · exact fun file' hfile' hstands' => absurd ⟨file', hfile', hstands'⟩ hunwritten
  · exact fun file' hfile' _ _ hstands' => absurd ⟨file', hfile', hstands'⟩ hunwritten

/-- The temporary file is renamed while nobody is writing it. -/
theorem HashFiles.renamed (h : HashFiles server segment contents s)
    (hunwritten : ¬ s.Writes (server.temporaryPath segment))
    (hrename : s.tree.renameFile (server.temporaryPath segment) (segment.extend sidecarSuffix) =
      .ok s'.tree)
    (hwriting : s'.writing = s.writing.map fun file =>
      file.renamed (server.temporaryPath segment) (segment.extend sidecarSuffix)) :
    HashFiles server segment contents s' := by
  have hstood : ∀ path, server.IsHashPath segment path → ¬ s'.Writes path := by
    rintro path hpath ⟨file, hfile, hstands⟩
    rw [hwriting] at hfile
    obtain ⟨before, hbefore, rfl⟩ := List.mem_map.mp hfile
    rcases OpenFile.renamed_stands hstands with ⟨hmoved, -⟩ | hstays
    · exact hunwritten ⟨before, hbefore, hmoved⟩
    · rcases hpath with rfl | rfl
      · exact h.sidecar ⟨before, hbefore, hstays⟩
      · exact hunwritten ⟨before, hbefore, hstays⟩
  have htemporary := hstood _ (Or.inr rfl)
  constructor
  · intro path hpath _ line hline
    rcases @FileTree.find?_renamed s.tree _ s'.tree _ path hrename with
      hkept | ⟨rfl, hmoved⟩ | hgone
    · rw [hkept] at hline
      rcases hpath with rfl | rfl
      · exact h.hashed _ (Or.inl rfl) h.sidecar line hline
      · exact h.hashed _ (Or.inr rfl) hunwritten line hline
    · -- The hash that stood under the temporary name.
      rw [hmoved] at hline
      exact h.hashed _ (Or.inr rfl) hunwritten line hline
    · rw [hgone] at hline
      cases hline
  · exact hstood _ (Or.inl rfl)
  · exact fun hw => absurd hw htemporary
  · exact fun file hfile hstands => absurd ⟨file, hfile, hstands⟩ htemporary
  · exact fun file hfile _ _ hstands => absurd ⟨file, hfile, hstands⟩ htemporary

/-- An undisturbed call keeps the two paths to hashes. -/
theorem HashFiles.exchanged (hne : segment ≠ []) (h : HashFiles server segment contents s)
    (hdistinct : Distinct s.writing) {index : ℕ} {circumstances : Circumstances} {op : AssetCall}
    {answer : Option op.Answer} {trace : AssetTrace}
    (hexchange : s.exchange index circumstances op = (answer, s'.tree, s'.writing))
    (hreads : ∀ exchange ∈ trace, server.ReadsHash segment contents exchange)
    (hundisturbed : s.Undisturbed (server.temporaryPath segment) index circumstances op)
    (hconfined : (∃ path', op = .stat path') ∨ ∃ directory ∈ server.directories,
      server.Confined directory trace op) : HashFiles server segment contents s' := by
  rcases exchange_cases hexchange with ⟨htree, hwriting⟩ |
    ⟨path, line, rfl, hnone, hwrite, hwriting⟩ | ⟨path, line, file, rfl, hfile, htree, hwriting⟩ |
    ⟨path, path', rfl, hrename, hwriting⟩
  · refine h.apart (fun path _ => by rw [htree]) fun path _ file _ => ?_
    rw [hwriting]
  · obtain ⟨_, hstat⟩ | ⟨directory, -, segmentName, segment', bytes, hsegment, rfl, rfl, hlast⟩ :=
      hconfined
    · cases hstat
    rw [OriginState.Undisturbed, hnone] at hundisturbed
    by_cases hsame : segment' = segment
    · subst hsame
      obtain rfl : bytes = contents := (hreads _ (List.mem_of_getLast? hlast)).1 rfl
      exact h.opened hne ⟨segmentName, rfl⟩ (hundisturbed rfl) hwrite hwriting
    · -- The temporary file of another segment is neither of the two.
      have hother : ∀ path, server.IsHashPath segment path →
          path ≠ server.temporaryPath segment' :=
        fun path hpath => (hpath.apart hne hsegment.below.ne_nil hsame).1
      refine h.apart (fun path hpath => FileTree.find?_of_writeFile hwrite (hother path hpath))
        fun path hpath file hstands => ?_
      rw [hwriting, List.mem_append, List.mem_singleton]
      refine ⟨fun hmem => hmem.resolve_right ?_, Or.inl⟩
      rintro rfl
      exact hother path hpath (Option.some.inj hstands).symm
  · obtain ⟨hmem, rfl⟩ := mem_writing_of_file? hfile
    rw [OriginState.Undisturbed, hfile] at hundisturbed
    by_cases hstands : file.stands = some (server.temporaryPath segment)
    · exact h.written hne hmem hstands (hundisturbed hstands) htree hwriting
    · have hother : ∀ path, server.IsHashPath segment path → file.stands ≠ some path := by
        rintro path (rfl | rfl) heq
        · exact h.sidecar ⟨file, hmem, heq⟩
        · exact hstands heq
      refine h.apart (fun path hpath => ?_) fun path hpath file' hstands' => ?_
      · rw [htree]
        exact OpenFile.find?_write (hother path hpath)
      · rw [hwriting, List.mem_filter]
        refine ⟨And.left, fun hmem' => ⟨hmem', decide_eq_true fun hindex => ?_⟩⟩
        rw [hdistinct file' hmem' file hmem hindex] at hstands'
        exact hother path hpath hstands'
  · obtain ⟨_, hstat⟩ | ⟨directory, -, segmentName, segment', bytes, hsegment, rfl, rfl, -⟩ :=
      hconfined
    · cases hstat
    by_cases hsame : segment' = segment
    · subst hsame
      exact h.renamed (hundisturbed rfl) hrename hwriting
    · have hother : ∀ path, server.IsHashPath segment path →
          path ≠ server.temporaryPath segment' ∧ path ≠ segment'.extend sidecarSuffix :=
        fun path hpath => hpath.apart hne hsegment.below.ne_nil hsame
      refine h.apart (fun path hpath => FileTree.find?_of_renameFile hrename (hother path hpath).1
        (hother path hpath).2) fun path hpath file hstands => ?_
      have hstays : ∀ file : OpenFile, file.stands = some path →
          file.renamed (server.temporaryPath segment') (segment'.extend sidecarSuffix) = file :=
        fun file => OpenFile.renamed_of_ne (hother path hpath).1 (hother path hpath).2
      rw [hwriting, List.mem_map]
      constructor
      · rintro ⟨before, hbefore, rfl⟩
        rcases OpenFile.renamed_stands hstands with ⟨-, rfl⟩ | hstood
        · exact absurd rfl (hother _ hpath).2
        · exact (hstays before hstood).symm ▸ hbefore
      · exact fun hmem => ⟨file, hmem, hstays file hstands⟩

/-- Others write nothing but the hash. -/
theorem HashFiles.changed (h : HashFiles server segment contents s)
    (hkeeps : ∀ path, server.IsHashPath segment path → s'.tree.find? path = s.tree.find? path ∨
      ¬ s.Writes path ∧ ∀ line, s'.tree.find? path = some (.file line) →
        server.IsHashLine contents line)
    (hwriting : s'.writing = s.writing) : HashFiles server segment contents s' := by
  have hwrites : ∀ path, s'.Writes path ↔ s.Writes path := by
    intro path
    unfold OriginState.Writes
    rw [hwriting]
  refine ⟨fun path hpath hunwritten line hline => ?_, fun hw => h.sidecar ((hwrites _).mp hw),
    fun hw => ?_, hwriting ▸ h.lines, hwriting ▸ h.single⟩
  · rcases hkeeps path hpath with hsame | ⟨-, hhash⟩
    · rw [hsame] at hline
      exact h.hashed path hpath (fun hw => hunwritten ((hwrites path).mpr hw)) line hline
    · exact hhash line hline
  · have hwritten := (hwrites _).mp hw
    rcases hkeeps _ (Or.inr rfl) with hsame | ⟨hunwritten, -⟩
    · rw [hsame]
      exact h.empty hwritten
    · exact absurd hwritten hunwritten

/-- A read of the segment or of its sidecar gives what stands there. -/
theorem readsHash_answer {circumstances : Circumstances} (op : AssetCall)
    (h : HashFiles server segment contents s)
    (hsegment : s.tree.find? segment = some (.file contents)) :
    server.ReadsHash segment contents ⟨op, (s.tree.answer circumstances op).1⟩ := by
  unfold FileTree.answer
  cases circumstances.failure with
  | some error => cases op <;> trivial
  | none =>
      cases op with
      | readFile path =>
          dsimp only
          cases hread : s.tree.readFile path with
          | error error => trivial
          | ok bytes =>
              have hfile := FileTree.file_of_readFile hread
              refine ⟨?_, ?_⟩
              · rintro rfl
                exact FileTree.file_inj hfile hsegment
              · rintro rfl
                exact h.hashed _ (Or.inl rfl) h.sidecar bytes hfile
      | _ => trivial

/-- What holds in every state, as long as others write only hashes and no write is disturbed. -/
structure HashSound (server : AssetServer) (segment : AbsolutePath) (contents : List UInt8)
    (s : OriginState) : Prop where
  stays : s.tree.find? segment = some (.file contents)
  files : HashFiles server segment contents s
  leads : ∀ run ∈ s.runs, Leads (server.handle run.request) run.trace run.program
  reads : ∀ run ∈ s.runs, ∀ exchange ∈ run.trace, server.ReadsHash segment contents exchange
  writes : server.WritesHashes s
  distinct : Distinct s.writing

theorem HashSound.step (hunhashed : ¬ server.HashFile segment) {event : OriginEvent}
    (h : HashSound server segment contents s) (hkeeps : server.KeepsHash segment contents s event)
    (hstep : server.originStep s event = some s') : HashSound server segment contents s' := by
  have hne : segment ≠ [] := by
    rintro rfl
    cases h.stays
  have hfiles : s'.tree.find? segment = some (.file contents) ∧
      HashFiles server segment contents s' ∧ Distinct s'.writing := by
    rcases files_step hstep with ⟨hsame | rfl, hwriting⟩ |
      ⟨index, circumstances, request, trace, op, next, answer, rfl, hget, hexchange⟩
    · rw [hsame, hwriting]
      exact ⟨h.stays, h.files.changed (fun path _ => Or.inl (by rw [hsame])) hwriting, h.distinct⟩
    · rw [hwriting]
      exact ⟨hkeeps.1.trans h.stays, h.files.changed hkeeps.2 hwriting, h.distinct⟩
    · have hmem := List.mem_of_getElem? hget
      have hconfined := call_confined (h.leads _ hmem)
      exact ⟨(find?_exchange hexchange h.writes hunhashed hconfined).trans h.stays,
        h.files.exchanged hne h.distinct hexchange (h.reads _ hmem)
          (hkeeps _ hget op rfl) hconfined,
        distinct_exchange hexchange h.distinct⟩
  refine ⟨hfiles.1, hfiles.2.1, leads_step hstep h.leads,
    forall_runs_step hstep h.reads (fun _ _ hmem => absurd hmem List.not_mem_nil)
      fun _ hmem hanswer => forall_trace_concat (h.reads _ hmem) ?_,
    h.writes.step hstep h.leads, hfiles.2.2⟩
  rcases answer_of_exchange hanswer with ⟨path, line, rfl⟩ | rfl
  · trivial
  · exact readsHash_answer _ h.files h.stays

theorem hashSound_of_reachable {tree : FileTree} (hunhashed : ¬ server.HashFile segment)
    (hfile : tree.find? segment = some (.file contents))
    (hhashed : server.Hashed segment contents tree)
    (hr : (server.serving tree).Reachable (server.KeepsHash segment contents) s) :
    HashSound server segment contents s := by
  refine hr.invariant (HashSound server segment contents) ?_ fun s event s' h hkeeps hstep =>
    h.step hunhashed hkeeps hstep
  rintro s ⟨rfl, hruns, hwriting⟩
  have hunopened : ∀ file, file ∉ s.writing := by
    rw [hwriting]
    exact fun file => List.not_mem_nil
  have hunstarted : ∀ run, run ∉ s.runs := by
    rw [hruns]
    exact fun run => List.not_mem_nil
  refine ⟨hfile, ⟨fun path hpath _ => hhashed path hpath, ?_, ?_, ?_, ?_⟩, ?_, ?_, ?_, ?_⟩
  · rintro ⟨file, hopened, -⟩
    exact hunopened file hopened
  · rintro ⟨file, hopened, -⟩
    exact absurd hopened (hunopened file)
  · exact fun file hopened => absurd hopened (hunopened file)
  · exact fun file hopened => absurd hopened (hunopened file)
  · exact fun run hrun => absurd hrun (hunstarted run)
  · exact fun run hrun => absurd hrun (hunstarted run)
  · exact fun file hopened => absurd hopened (hunopened file)
  · exact fun file hopened => absurd hopened (hunopened file)

/-! ## What is served -/

/-- A body is a line with the hash. -/
def ShowsHash (server : AssetServer) (method : String) (contents : List UInt8) :
    OriginResponse → Prop
  | .file _ _ _ body => if method = "HEAD" then body = [] else server.IsHashLine contents body
  | _ => True

variable {trace : AssetTrace} {method contentType : String}

theorem sendFile_showsHash (cacheControl : CacheControl) :
    Ensures (server.ReadsHash segment contents) (fun _ _ => True)
      (fun _ response => server.ShowsHash method contents response) trace
      (sendFile method contentType cacheControl (segment.extend sidecarSuffix)) := by
  refine ⟨trivial, fun answer _ => ?_⟩
  rcases answer with error | stats
  · cases error <;> trivial
  · dsimp only
    split_ifs with hfile hhead
    · change if method = "HEAD" then ([] : List UInt8) = [] else server.IsHashLine contents []
      rw [if_pos hhead]
    · refine ⟨trivial, fun answer hread => ?_⟩
      cases answer with
      | error error => trivial
      | ok line =>
          change if method = "HEAD" then line = [] else server.IsHashLine contents line
          rw [if_neg hhead]
          exact hread.2 rfl
    · trivial

/-- The path that is returned is the sidecar of the segment. -/
def IsSidecar (segment : AbsolutePath) {ε : Type} : Except ε AbsolutePath → Prop
  | .ok path => path = segment.extend sidecarSuffix
  | .error _ => True

theorem createHashFile_isSidecar {A : Exchange AssetCall AssetCall.Answer → Prop}
    (segmentName : List Char) : Ensures A (fun _ _ => True)
      (fun _ created => IsSidecar segment created) trace
      (server.createHashFile segmentName segment) := by
  refine ⟨trivial, fun answer _ => ?_⟩
  rcases answer with error | found
  · cases error with
    | notFound =>
        refine ⟨trivial, fun answer _ => ?_⟩
        cases answer with
        | error error => trivial
        | ok bytes =>
            refine ⟨trivial, fun answer _ => ?_⟩
            cases answer with
            | error error => trivial
            | ok written =>
                refine ⟨trivial, fun answer _ => ?_⟩
                cases answer with
                | error error => trivial
                | ok renamed => rfl
    | _ => trivial
  · rfl

theorem ensureHash_isSidecar {A : Exchange AssetCall AssetCall.Answer → Prop}
    {directory : AbsolutePath} {segmentName : List Char}
    (hresolve : resolveHlsAssetPath directory segmentName = some segment) :
    Ensures A (fun _ _ => True) (fun _ created => IsSidecar segment created) trace
      (server.ensureHash directory segmentName) := by
  unfold ensureHash
  rw [hresolve]
  split_ifs with hmedia
  · refine ⟨trivial, fun answer _ => ?_⟩
    rcases answer with _ | error | pending
    · refine ensures_bind.mpr ((createHashFile_isSidecar segmentName).mono fun trace created h => ?_)
      cases created with
      | error error => trivial
      | ok path => exact h
    · trivial
    · rfl
  · trivial

theorem sendSidecar_showsHash {asset : ResolvedStreamAsset}
    (hresolve : resolveHlsAssetPath asset.assetDirectory
      (asset.assetName.take (asset.assetName.length - ".sha256".toList.length)) = some segment) :
    Ensures (server.ReadsHash segment contents) (fun _ _ => True)
      (fun _ response => server.ShowsHash method contents response) trace
      (server.sendSidecar method contentType asset (segment.extend sidecarSuffix)) := by
  have hexists : Ensures (server.ReadsHash segment contents) (fun _ _ => True) (fun _ _ => True)
      trace (fileExists (segment.extend sidecarSuffix)) := fileExists_ensures trivial
  refine ensures_bind.mpr (hexists.mono fun trace found _ => ?_)
  rcases found with error | _ | _
  · trivial
  · dsimp only
    split_ifs with hmedia
    · refine ensures_bind.mpr ((ensureHash_isSidecar hresolve).mono fun trace hash h => ?_)
      rcases hash with (_ | error) | hashPath
      · trivial
      · cases error with
        | notFound => exact sendFile_showsHash _
        | _ => trivial
      · obtain rfl : hashPath = segment.extend sidecarSuffix := h
        exact sendFile_showsHash _
    · trivial
  · exact sendFile_showsHash _

/-- However many requests write the sidecar of a segment side by side, as long as none opens or
renames the temporary file while another is writing it, every sidecar that is served is a line with
the hash of the segment. -/
theorem served_sidecars_hash {tree : FileTree} (hunhashed : ¬ server.HashFile segment)
    (hfile : tree.find? segment = some (.file contents))
    (hhashed : server.Hashed segment contents tree) {s : OriginState}
    (hr : (server.serving tree).Reachable (server.KeepsHash segment contents) s)
    {run : AssetRun} (hrun : run ∈ s.runs) {response : OriginResponse}
    (hdone : run.program = .done response) {target : AssetTarget}
    (htarget : server.target? run.request = some target)
    (hextension : target.extension = ".sha256".toList)
    (hpath : target.filePath = segment.extend sidecarSuffix)
    (hresolve : resolveHlsAssetPath target.asset.assetDirectory (target.asset.assetName.take
      (target.asset.assetName.length - ".sha256".toList.length)) = some segment) :
    server.ShowsHash run.request.method contents response := by
  have hsound := hashSound_of_reachable hunhashed hfile hhashed hr
  have hensures : Ensures (server.ReadsHash segment contents) (fun _ _ => True)
      (fun _ response => server.ShowsHash run.request.method contents response) []
      (server.handle run.request) := by
    rcases handle_of_target htarget with ⟨statusCode, error, hrefused⟩ | ⟨contentType, hsend⟩
    · rw [hrefused]
      trivial
    · rw [hsend, sendAsset, hextension, hpath, if_neg fun h => absurd h.1 (by decide),
        if_neg (by decide), if_pos rfl]
      exact sendSidecar_showsHash hresolve
  have hleads := hsound.leads run hrun
  rw [hdone] at hleads
  exact (Ensures.of_leads hleads (hsound.reads run hrun) hensures).2

/-! ## One sidecar under two names -/

def sidecarRequests : List AssetRequest :=
  [assetRequest "a.ts.sha256".toList, assetRequest "..%2Flive/a.ts.sha256".toList]

/-- The second request writes the file after the first, and the first renames it. -/
def twoSidecars : List OriginEvent :=
  sidecarRequests.map .request ++ calls [0, 1, 0, 1, 0, 1, 0, 1, 0, 0, 1, 1, 0, 1, 0, 1, 0, 1]

/-- The second request has only opened the file when the first renames it. -/
def overlappingSidecars : List OriginEvent :=
  sidecarRequests.map .request ++ calls [0, 1, 0, 1, 0, 1, 0, 1, 0, 0, 1, 0, 0, 0]

def liveSidecar : AssetTarget where
  extension := ".sha256".toList
  asset := ⟨liveFile [], "a.ts.sha256".toList⟩
  filePath := liveFile "a.ts.sha256".toList

def aliasLine : List UInt8 := liveServer.hashLine "../live/a.ts".toList liveSegment

/-- Where the first of the two requests ends. -/
theorem exists_sidecar {ok : OriginState → OriginEvent → Prop} {events : List OriginEvent}
    (line : List UInt8) (hok : (liveServer.serving liveTree).RunOk ok ⟨liveTree, [], []⟩ events)
    (hruns : ((liveServer.serving liveTree).run ⟨liveTree, [], []⟩ events).map (fun s =>
      (s.runs.take 1).map fun run => (run.request, run.program.result?)) =
        some [(assetRequest "a.ts.sha256".toList, some
          (.file "text/plain; charset=utf-8" line.length .immutable line))]) :
    ∃ s, (liveServer.serving liveTree).Reachable ok s ∧ ∃ run ∈ s.runs,
      run.request = assetRequest "a.ts.sha256".toList ∧ run.program = .done
        (.file "text/plain; charset=utf-8" line.length .immutable line) := by
  obtain ⟨s, hrun, hresults⟩ := Option.map_eq_some_iff.mp hruns
  have hstart : (liveServer.serving liveTree).Reachable ok ⟨liveTree, [], []⟩ :=
    .init ⟨rfl, rfl, rfl⟩
  have hmem : (assetRequest "a.ts.sha256".toList, some (OriginResponse.file
      "text/plain; charset=utf-8" line.length .immutable line)) ∈
        (s.runs.take 1).map fun run => (run.request, run.program.result?) := by
    rw [hresults]
    exact List.mem_cons_self
  obtain ⟨run, hrun', hpair⟩ := List.mem_map.mp hmem
  injection hpair with hrequest hresult
  exact ⟨s, hstart.append_run hok hrun, run, List.mem_of_mem_take hrun', hrequest,
    eq_done_of_result? hresult⟩

/-- What is asked of a run in which nobody else changes files. -/
def KeepsToCalls (s : OriginState) : OriginEvent → Prop
  | .request _ => True
  | .call index circumstances => ∀ run ∈ s.runs[index]?, ∀ op ∈ run.program.call?,
      s.Undisturbed (liveServer.temporaryPath (liveFile "a.ts".toList)) index circumstances op
  | .change _ => False

instance decidableKeepsToCalls : ∀ s event, Decidable (KeepsToCalls s event)
  | _, .request _ => isTrue trivial
  | s, .call index circumstances =>
      inferInstanceAs (Decidable (∀ run ∈ s.runs[index]?, ∀ op ∈ run.program.call?,
        s.Undisturbed (liveServer.temporaryPath (liveFile "a.ts".toList)) index circumstances op))
  | _, .change _ => isFalse id

theorem keepsHash_of_keepsToCalls (s : OriginState) (event : OriginEvent)
    (h : KeepsToCalls s event) :
    liveServer.KeepsHash (liveFile "a.ts".toList) liveSegment s event := by
  cases event with
  | request request => trivial
  | call index circumstances => exact h
  | change tree => cases h

theorem liveTree_hashed : liveServer.Hashed (liveFile "a.ts".toList) liveSegment liveTree := by
  have hnone : liveTree.find? ((liveFile "a.ts".toList).extend sidecarSuffix) = none ∧
      liveTree.find? (liveServer.temporaryPath (liveFile "a.ts".toList)) = none := by decide +kernel
  rintro path (rfl | rfl) line hline
  · rw [hnone.1] at hline
    cases hline
  · rw [hnone.2] at hline
    cases hline

theorem aliasedSidecar_hashes : liveServer.ShowsHash "GET" liveSegment
    (.file "text/plain; charset=utf-8" aliasLine.length .immutable aliasLine) := by
  have hok : (liveServer.serving liveTree).RunOk KeepsToCalls ⟨liveTree, [], []⟩ twoSidecars := by
    decide +kernel
  obtain ⟨s, hr, run, hrun, hrequest, hdone⟩ :=
    exists_sidecar aliasLine hok (by decide +kernel)
  have htarget : liveServer.target? run.request = some liveSidecar := by
    rw [hrequest]
    decide +kernel
  have hshows := served_sidecars_hash (liveTree_stored.unhashed _ List.mem_cons_self)
    (by decide +kernel) liveTree_hashed (hr.mono keepsHash_of_keepsToCalls) hrun hdone htarget rfl
    (by decide +kernel) (by decide +kernel)
  rw [hrequest] at hshows
  exact hshows

/-- Without the condition, an empty sidecar is served: that of a request which has renamed the file
that another had just opened. -/
theorem emptied_sidecar_served : ∃ s, (liveServer.serving liveTree).Reachable (fun _ _ => True) s ∧
    ∃ run ∈ s.runs, run.request = assetRequest "a.ts.sha256".toList ∧
      run.program = .done (.file "text/plain; charset=utf-8" 0 .immutable []) :=
  exists_sidecar [] (TransitionSystem.runOk_of_forall (fun _ _ => trivial) overlappingSidecars _)
    (by decide +kernel)

end AssetServer

end OpenStreamGrid
