import OpenStreamGrid.Lib.TransitionSystem
import OpenStreamGrid.Origin.AssetConfinement

/-!
# Requests side by side

The origin answers any number of requests at once over one tree of files that FFmpeg,
the hash timer and the operator change meanwhile. A file that these leave alone is
served as it stands, whatever other requests run, and so are its parts.
-/

namespace OpenStreamGrid

open Origin Program

/-- A request that has arrived, what it has exchanged, and what is left of its program. -/
structure AssetRun where
  request : AssetRequest
  trace : AssetTrace
  program : AssetProgram OriginResponse

/-- A file that a request has opened to write, which stays the same file under another name. -/
structure OpenFile where
  index : ℕ
  contents : List UInt8
  /-- Where it stands, until another takes its place. -/
  stands : Option AbsolutePath

structure OriginState where
  tree : FileTree
  runs : List AssetRun
  writing : List OpenFile

/-- What the files do not determine about an answer. -/
structure Circumstances where
  /-- The call fails for another reason than its files. -/
  failure : Option FileError
  /-- How many bytes a write has written when it fails. -/
  written : ℕ
  directorySize : ℕ
  pendingHash : Option (Except FileError Unit)

inductive OriginEvent where
  | request (request : AssetRequest)
  /-- The next call of the request that arrived at this place, or the next step of a write. -/
  | call (index : ℕ) (circumstances : Circumstances)
  /-- Others change files, and rename none that a request is writing. -/
  | change (tree : FileTree)

/-! ## Calls on a tree -/

namespace FileTree

variable (tree : FileTree)

def stat (path : AbsolutePath) (directorySize : ℕ) : Except FileError FileStats :=
  match tree.find? path with
  | some (.file contents) => .ok ⟨true, contents.length⟩
  | some .directory => .ok ⟨false, directorySize⟩
  | none => .error (tree.missing path)

def failed (error : FileError) : (op : AssetCall) → op.Answer
  | .stat _ | .access _ | .readFile _ | .writeFile _ _ | .rename _ _ => .error error
  | .pendingHash _ _ => some (.error error)

/-- What a change answers, and the tree after it. -/
def changed (result : Except FileError FileTree) : Except FileError Unit × FileTree :=
  match result with
  | .ok tree' => (.ok (), tree')
  | .error error => (.error error, tree)

/-- The answer of a call that is one step; of a write, that of opening its file, which empties it. -/
def answer (circumstances : Circumstances) (op : AssetCall) : op.Answer × FileTree :=
  match circumstances.failure with
  | some error => (failed error op, tree)
  | none =>
      match op with
      | .stat path => (tree.stat path circumstances.directorySize, tree)
      | .access path => ((tree.stat path 0).map fun _ => (), tree)
      | .readFile path => (tree.readFile path, tree)
      | .writeFile path _ => tree.changed (tree.writeFile path [])
      | .rename path path' => tree.changed (tree.renameFile path path')
      | .pendingHash _ _ => (circumstances.pendingHash, tree)

/-! ### Changes -/

theorem changed_error {result : Except FileError FileTree} {error : FileError} {left : FileTree}
    (h : tree.changed result = (.error error, left)) : left = tree := by
  cases result with
  | error error' => exact (Prod.mk.inj h).2.symm
  | ok changed => exact nomatch (Prod.mk.inj h).1

theorem changed_ok {failure : Option FileError} {result : Except FileError FileTree}
    {left : FileTree} (h : tree.changed (failure.elim result .error) = (.ok (), left)) :
    result = .ok left := by
  cases failure with
  | some error => exact nomatch (Prod.mk.inj h).1
  | none =>
      cases result with
      | error error => exact nomatch (Prod.mk.inj h).1
      | ok changed => exact congrArg Except.ok (Prod.mk.inj h).2

theorem answer_writeFile (circumstances : Circumstances) (path : AbsolutePath)
    (contents : List UInt8) : tree.answer circumstances (.writeFile path contents) =
      tree.changed (circumstances.failure.elim (tree.writeFile path []) .error) := by
  unfold answer
  cases circumstances.failure <;> rfl

theorem answer_rename (circumstances : Circumstances) (path path' : AbsolutePath) :
    tree.answer circumstances (.rename path path') =
      tree.changed (circumstances.failure.elim (tree.renameFile path path') .error) := by
  unfold answer
  cases circumstances.failure <;> rfl

end FileTree

namespace OpenFile

variable (file : OpenFile)

/-- It goes with the name that it has, and has none when another file takes that. -/
def renamed (path path' : AbsolutePath) : OpenFile :=
  if file.stands = some path then { file with stands := some path' }
  else if file.stands = some path' then { file with stands := none }
  else file

/-- The bytes are written over the first ones of the file. -/
def write (circumstances : Circumstances) (tree : FileTree) : FileTree :=
  let bytes := if circumstances.failure = none then file.contents
    else file.contents.take circumstances.written
  match file.stands with
  | none => tree
  | some path =>
      match tree.find? path with
      | some (.file old) =>
          (tree.changed (tree.writeFile path (bytes ++ old.drop bytes.length))).2
      | _ => tree

variable {file}

/-- A write changes no other file. -/
theorem find?_write {circumstances : Circumstances} {tree : FileTree} {path : AbsolutePath}
    (h : file.stands ≠ some path) :
    (file.write circumstances tree).find? path = tree.find? path := by
  unfold write
  cases hstands : file.stands with
  | none => rfl
  | some path' =>
      dsimp only
      split
      · rename_i old hold
        generalize (if circumstances.failure = none then file.contents
          else file.contents.take circumstances.written) = bytes
        cases hwrite : tree.writeFile path' (bytes ++ old.drop bytes.length) with
        | error error => rfl
        | ok written =>
            refine FileTree.find?_of_writeFile hwrite ?_
            rintro rfl
            exact h hstands
      · rfl

theorem find?_write_empty {circumstances : Circumstances} {tree : FileTree} {path : AbsolutePath}
    (file : OpenFile) (h : file.stands = some path) (hempty : tree.find? path = some (.file []))
    (hfailure : circumstances.failure = none) :
    (file.write circumstances tree).find? path = some (.file file.contents) := by
  have hne : path ≠ [] := by
    rintro rfl
    cases hempty
  have hwritable : tree.Writable path :=
    ⟨hne, by rw [hempty]; exact nofun, FileTree.parent_of_entry hne hempty⟩
  obtain ⟨written, hwrite, hwritten⟩ := FileTree.writeFile_ok hwritable file.contents
  unfold write
  rw [h]
  dsimp only
  rw [hempty]
  dsimp only
  rw [if_pos hfailure, List.drop_nil, List.append_nil, hwrite]
  exact FileTree.find?_written hwrite

theorem renamed_stands {path path' path'' : AbsolutePath}
    (h : (file.renamed path path').stands = some path'') :
    (file.stands = some path ∧ path'' = path') ∨ file.stands = some path'' := by
  unfold renamed at h
  split_ifs at h with hmoved hreplaced
  · exact Or.inl ⟨hmoved, (Option.some.inj h).symm⟩
  · exact Or.inr h

theorem renamed_index (path path' : AbsolutePath) :
    (file.renamed path path').index = file.index := by
  unfold renamed
  split_ifs <;> rfl

theorem renamed_of_ne {path path' path'' : AbsolutePath} (hne : path'' ≠ path)
    (hne' : path'' ≠ path') (h : file.stands = some path'') : file.renamed path path' = file := by
  unfold renamed
  rw [if_neg, if_neg]
  · rw [h, Option.some.injEq]
    exact hne'
  · rw [h, Option.some.injEq]
    exact hne

end OpenFile

namespace OriginState

variable (s : OriginState)

def file? (index : ℕ) : Option OpenFile := s.writing.find? fun file => file.index = index

/-- The next step of a call: its answer, and the files. A write has two, of which the first only
opens and empties its file. -/
def exchange (index : ℕ) (circumstances : Circumstances) (op : AssetCall) :
    Option op.Answer × FileTree × List OpenFile :=
  match op with
  | .writeFile path contents =>
      match s.file? index with
      -- The file may have moved since it was opened.
      | some file =>
          (some (circumstances.failure.elim (.ok ()) .error), file.write circumstances s.tree,
            s.writing.filter fun file => file.index ≠ index)
      | none =>
          match s.tree.answer circumstances (.writeFile path contents) with
          | (.error error, tree) => (some (.error error), tree, s.writing)
          | (.ok (), tree) => (none, tree, s.writing ++ [⟨index, contents, some path⟩])
  | .rename path path' =>
      match s.tree.answer circumstances (.rename path path') with
      | (.error error, tree) => (some (.error error), tree, s.writing)
      | (.ok (), tree) =>
          (some (.ok ()), tree, s.writing.map fun file => file.renamed path path')
  | op =>
      let (answer, tree) := s.tree.answer circumstances op
      (some answer, tree, s.writing)

end OriginState

namespace AssetServer

variable (server : AssetServer)

def originStep (s : OriginState) : OriginEvent → Option OriginState
  | .request request => some { s with runs := s.runs ++ [⟨request, [], server.handle request⟩] }
  | .change tree => some { s with tree }
  | .call index circumstances =>
      match s.runs[index]? with
      | some ⟨request, trace, .call op next⟩ =>
          match s.exchange index circumstances op with
          | (none, tree, writing) => some ⟨tree, s.runs, writing⟩
          | (some answer, tree, writing) =>
              some ⟨tree, s.runs.set index ⟨request, trace ++ [⟨op, answer⟩], next answer⟩, writing⟩
      | _ => none

/-- The origin over the files of a tree. -/
def serving (tree : FileTree) : TransitionSystem OriginState OriginEvent where
  init s := s.tree = tree ∧ s.runs = [] ∧ s.writing = []
  step := server.originStep

/-- Others leave these paths alone, and a file is missing only where none stands. -/
def Keeps (kept : AbsolutePath → Prop) (s : OriginState) : OriginEvent → Prop
  | .request _ => True
  | .call _ circumstances => circumstances.failure ≠ some .notFound
  | .change tree => ∀ path, kept path → tree.find? path = s.tree.find? path

/-- A sidecar or its temporary file. -/
def HashFile (path : AbsolutePath) : Prop :=
  ∃ directory ∈ server.directories, ∃ segmentName segment,
    SegmentIn directory segmentName segment ∧
      (path = segment.extend sidecarSuffix ∨
        path = segment.extend (temporarySuffix server.process.pid))

/-- Paths with files that no request writes. -/
structure Stored (tree : FileTree) (kept : AbsolutePath → Prop) : Prop where
  file : ∀ path, kept path → tree.find? path ≠ some .directory
  unhashed : ∀ path, kept path → ¬ server.HashFile path

/-- The answer that a file of the tree determines. -/
def Agrees (tree : FileTree) (kept : AbsolutePath → Prop) :
    Exchange AssetCall AssetCall.Answer → Prop
  | ⟨.stat path, .ok stats⟩ => kept path →
      ∃ contents, tree.find? path = some (.file contents) ∧ stats = ⟨true, contents.length⟩
  | ⟨.stat path, .error .notFound⟩ => kept path → tree.find? path = none
  | ⟨.readFile path, .ok contents⟩ => kept path → tree.find? path = some (.file contents)
  | _ => True

/-! ## Steps -/

variable {server} {tree : FileTree} {kept : AbsolutePath → Prop}

theorem hashFile_of_write {trace : AssetTrace} {path : AbsolutePath} {contents : List UInt8}
    (hconfined : (∃ path', AssetCall.writeFile path contents = .stat path') ∨
      ∃ directory ∈ server.directories, server.Confined directory trace (.writeFile path contents)) :
    server.HashFile path := by
  obtain ⟨_, hstat⟩ | ⟨directory, hmem, segmentName, segment, _, hsegment, rfl, -, -⟩ := hconfined
  · cases hstat
  · exact ⟨directory, hmem, segmentName, segment, hsegment, Or.inr rfl⟩

theorem hashFile_of_rename {trace : AssetTrace} {path path' : AbsolutePath}
    (hconfined : (∃ path'', AssetCall.rename path path' = .stat path'') ∨
      ∃ directory ∈ server.directories, server.Confined directory trace (.rename path path')) :
    server.HashFile path ∧ server.HashFile path' := by
  obtain ⟨_, hstat⟩ | ⟨directory, hmem, segmentName, segment, _, hsegment, rfl, rfl, -⟩ := hconfined
  · cases hstat
  · exact ⟨⟨directory, hmem, segmentName, segment, hsegment, Or.inr rfl⟩,
      ⟨directory, hmem, segmentName, segment, hsegment, Or.inl rfl⟩⟩

/-- An answer agrees with a tree that has the same files at the kept paths. -/
theorem agrees_answer {current : FileTree} {circumstances : Circumstances} (op : AssetCall)
    (hstored : server.Stored tree kept)
    (hcurrent : ∀ path, kept path → current.find? path = tree.find? path)
    (hfailure : circumstances.failure ≠ some .notFound) :
    Agrees tree kept ⟨op, (current.answer circumstances op).1⟩ := by
  unfold FileTree.answer
  cases hcause : circumstances.failure with
  | some error =>
      cases op with
      | stat path =>
          cases error with
          | notFound => exact absurd hcause hfailure
          | _ => trivial
      | _ => trivial
  | none =>
      cases op with
      | stat path =>
          dsimp only
          unfold FileTree.stat
          cases hentry : current.find? path with
          | none =>
              dsimp only
              cases current.missing path with
              | notFound => exact fun hkept => (hcurrent path hkept).symm.trans hentry
              | _ => trivial
          | some entry =>
              cases entry with
              | file contents =>
                  exact fun hkept => ⟨contents, (hcurrent path hkept).symm.trans hentry, rfl⟩
              | directory =>
                  -- A directory would be answered with a size of its own.
                  exact fun hkept => absurd ((hcurrent path hkept).symm.trans hentry)
                    (hstored.file path hkept)
      | readFile path =>
          dsimp only
          cases hread : current.readFile path with
          | error error => trivial
          | ok contents =>
              exact fun hkept => (hcurrent path hkept).symm.trans
                (FileTree.file_of_readFile hread)
      | _ => trivial

/-- A call that is one step is answered by the tree. -/
theorem answer_of_exchange {s : OriginState} {index : ℕ} {circumstances : Circumstances}
    {op : AssetCall} {answer : op.Answer} (h : (s.exchange index circumstances op).1 = some answer) :
    (∃ path contents, op = .writeFile path contents) ∨
      answer = (s.tree.answer circumstances op).1 := by
  cases op with
  | writeFile path contents => exact Or.inl ⟨path, contents, rfl⟩
  | rename path path' =>
      right
      unfold OriginState.exchange at h
      dsimp only at h
      split at h <;> rename_i heq <;> rw [heq] <;> exact (Option.some.inj h).symm
  | _ => exact Or.inr (Option.some.inj h).symm

/-- What the step of a call does to the files. -/
theorem exchange_cases {s : OriginState} {index : ℕ} {circumstances : Circumstances}
    {op : AssetCall} {answer : Option op.Answer} {left : FileTree} {writing : List OpenFile}
    (h : s.exchange index circumstances op = (answer, left, writing)) :
    (left = s.tree ∧ writing = s.writing) ∨
      (∃ path contents, op = .writeFile path contents ∧ s.file? index = none ∧
        s.tree.writeFile path [] = .ok left ∧
          writing = s.writing ++ [⟨index, contents, some path⟩]) ∨
      (∃ path contents file, op = .writeFile path contents ∧ s.file? index = some file ∧
        left = file.write circumstances s.tree ∧
          writing = s.writing.filter fun file => file.index ≠ index) ∨
      ∃ path path', op = .rename path path' ∧ s.tree.renameFile path path' = .ok left ∧
        writing = s.writing.map fun file => file.renamed path path' := by
  unfold OriginState.exchange at h
  cases op with
  | writeFile path contents =>
      dsimp only at h
      cases hfile : s.file? index with
      | some file =>
          rw [hfile] at h
          obtain ⟨-, rfl, rfl⟩ := by simpa only [Prod.mk.injEq] using h
          exact Or.inr (Or.inr (Or.inl ⟨path, contents, file, rfl, rfl, rfl, rfl⟩))
      | none =>
          rw [hfile, FileTree.answer_writeFile] at h
          dsimp only at h
          split at h <;> rename_i heq <;> obtain ⟨-, rfl, rfl⟩ := by simpa only [Prod.mk.injEq] using h
          · exact Or.inl ⟨s.tree.changed_error heq, rfl⟩
          · exact Or.inr (Or.inl ⟨path, contents, rfl, rfl, s.tree.changed_ok heq, rfl⟩)
  | rename path path' =>
      dsimp only at h
      rw [FileTree.answer_rename] at h
      split at h <;> rename_i heq <;> obtain ⟨-, rfl, rfl⟩ := by simpa only [Prod.mk.injEq] using h
      · exact Or.inl ⟨s.tree.changed_error heq, rfl⟩
      · exact Or.inr (Or.inr (Or.inr ⟨path, path', rfl, s.tree.changed_ok heq, rfl⟩))
  | _ =>
      obtain ⟨-, rfl, rfl⟩ := by simpa only [Prod.mk.injEq] using h
      refine Or.inl ⟨?_, rfl⟩
      unfold FileTree.answer
      cases circumstances.failure <;> rfl

/-- The step of a call, and the answer if it is the last one. -/
theorem step_call {s s' : OriginState} {index : ℕ} {circumstances : Circumstances}
    (hstep : server.originStep s (.call index circumstances) = some s') :
    ∃ request trace op next answer, s.runs[index]? = some ⟨request, trace, .call op next⟩ ∧
      s.exchange index circumstances op = (answer, s'.tree, s'.writing) ∧
      ∀ run ∈ s'.runs, run ∈ s.runs ∨
        ∃ last, answer = some last ∧ run = ⟨request, trace ++ [⟨op, last⟩], next last⟩ := by
  unfold originStep at hstep
  dsimp only at hstep
  split at hstep
  · rename_i request trace op next hget
    split at hstep <;> rename_i hexchange <;> obtain rfl := Option.some.inj hstep
    · exact ⟨request, trace, op, next, none, hget, hexchange, fun run hrun => Or.inl hrun⟩
    · rename_i last _ _
      refine ⟨request, trace, op, next, some last, hget, hexchange, fun run hrun => ?_⟩
      exact (List.mem_or_eq_of_mem_set hrun).imp_right fun heq => ⟨last, rfl, heq⟩
  · cases hstep

theorem forall_runs_step {P : AssetRun → Prop} {s s' : OriginState} {event : OriginEvent}
    (hstep : server.originStep s event = some s') (h : ∀ run ∈ s.runs, P run)
    (hnew : ∀ request, P ⟨request, [], server.handle request⟩)
    (hcall : ∀ {index circumstances request trace op next answer},
      event = .call index circumstances → ⟨request, trace, .call op next⟩ ∈ s.runs →
        (s.exchange index circumstances op).1 = some answer →
          P ⟨request, trace ++ [⟨op, answer⟩], next answer⟩) : ∀ run ∈ s'.runs, P run := by
  intro run hrun
  cases event with
  | request request =>
      obtain rfl := Option.some.inj hstep
      rcases List.mem_append.mp hrun with hold | hnew'
      · exact h run hold
      · obtain rfl := List.mem_singleton.mp hnew'
        exact hnew request
  | change changed =>
      obtain rfl := Option.some.inj hstep
      exact h run hrun
  | call index circumstances =>
      obtain ⟨request, trace, op, next, answer, hget, hexchange, hruns⟩ := step_call hstep
      rcases hruns run hrun with hold | ⟨last, rfl, rfl⟩
      · exact h run hold
      · exact hcall rfl (List.mem_of_getElem? hget) (by rw [hexchange])

/-- The files after a step are those before it, what others left or what a call left. -/
theorem files_step {s s' : OriginState} {event : OriginEvent}
    (hstep : server.originStep s event = some s') :
    ((s'.tree = s.tree ∨ event = .change s'.tree) ∧ s'.writing = s.writing) ∨
      ∃ index circumstances request trace op next answer, event = .call index circumstances ∧
        s.runs[index]? = some ⟨request, trace, .call op next⟩ ∧
          s.exchange index circumstances op = (answer, s'.tree, s'.writing) := by
  cases event with
  | request request =>
      obtain rfl := Option.some.inj hstep
      exact Or.inl ⟨Or.inl rfl, rfl⟩
  | change changed =>
      obtain rfl := Option.some.inj hstep
      exact Or.inl ⟨Or.inr rfl, rfl⟩
  | call index circumstances =>
      obtain ⟨request, trace, op, next, answer, hget, hexchange, -⟩ := step_call hstep
      exact Or.inr ⟨index, circumstances, request, trace, op, next, answer, rfl, hget, hexchange⟩

/-- Every request has run what is behind it. -/
theorem leads_step {s s' : OriginState} {event : OriginEvent}
    (hstep : server.originStep s event = some s')
    (h : ∀ run ∈ s.runs, Leads (server.handle run.request) run.trace run.program) :
    ∀ run ∈ s'.runs, Leads (server.handle run.request) run.trace run.program :=
  forall_runs_step hstep h (fun _ => .refl _) fun _ hmem _ =>
    (h _ hmem).trans (.call (.refl _))

/-- The files that requests are writing are sidecars, or their temporary files. -/
def WritesHashes (server : AssetServer) (s : OriginState) : Prop :=
  ∀ file ∈ s.writing, ∀ path, file.stands = some path → server.HashFile path

theorem mem_writing_of_file? {s : OriginState} {index : ℕ} {file : OpenFile}
    (h : s.file? index = some file) : file ∈ s.writing ∧ file.index = index :=
  ⟨List.mem_of_find?_eq_some h, by simpa using List.find?_some h⟩

/-- A call changes nothing but sidecars and their temporary files. -/
theorem find?_exchange {s : OriginState} {index : ℕ} {circumstances : Circumstances}
    {op : AssetCall} {answer : Option op.Answer} {left : FileTree} {writing : List OpenFile}
    {trace : AssetTrace} {path : AbsolutePath}
    (h : s.exchange index circumstances op = (answer, left, writing))
    (hwrites : server.WritesHashes s) (hpath : ¬ server.HashFile path)
    (hconfined : (∃ path', op = .stat path') ∨ ∃ directory ∈ server.directories,
      server.Confined directory trace op) : left.find? path = s.tree.find? path := by
  rcases exchange_cases h with ⟨rfl, -⟩ | ⟨path', contents, rfl, -, hwrite, -⟩ |
    ⟨path', contents, file, rfl, hfile, rfl, -⟩ | ⟨path', path'', rfl, hrename, -⟩
  · rfl
  · refine FileTree.find?_of_writeFile hwrite ?_
    rintro rfl
    exact hpath (hashFile_of_write hconfined)
  · exact OpenFile.find?_write fun hstands =>
      hpath (hwrites file (mem_writing_of_file? hfile).1 path hstands)
  · obtain ⟨htemporary, hsidecar⟩ := hashFile_of_rename hconfined
    refine FileTree.find?_of_renameFile hrename ?_ ?_
    · rintro rfl
      exact hpath htemporary
    · rintro rfl
      exact hpath hsidecar

theorem WritesHashes.step {s s' : OriginState} {event : OriginEvent}
    (hstep : server.originStep s event = some s')
    (hleads : ∀ run ∈ s.runs, Leads (server.handle run.request) run.trace run.program)
    (h : server.WritesHashes s) : server.WritesHashes s' := by
  intro file hfile path hstands
  rcases files_step hstep with ⟨-, hsame⟩ |
    ⟨index, circumstances, request, trace, op, next, answer, rfl, hget, hexchange⟩
  · rw [hsame] at hfile
    exact h file hfile path hstands
  · have hconfined := call_confined (hleads _ (List.mem_of_getElem? hget))
    rcases exchange_cases hexchange with ⟨-, hsame⟩ | ⟨path', contents, rfl, -, -, hopened⟩ |
      ⟨-, -, -, -, -, -, hclosed⟩ | ⟨path', path'', rfl, -, hrenamed⟩
    · rw [hsame] at hfile
      exact h file hfile path hstands
    · rw [hopened] at hfile
      rcases List.mem_append.mp hfile with hold | hnew
      · exact h file hold path hstands
      · obtain rfl := List.mem_singleton.mp hnew
        obtain rfl := Option.some.inj hstands
        exact hashFile_of_write hconfined
    · rw [hclosed] at hfile
      exact h file (List.mem_filter.mp hfile).1 path hstands
    · rw [hrenamed] at hfile
      obtain ⟨before, hbefore, rfl⟩ := List.mem_map.mp hfile
      rcases OpenFile.renamed_stands hstands with ⟨-, rfl⟩ | hstood
      · exact (hashFile_of_rename hconfined).2
      · exact h before hbefore path hstood

theorem forall_trace_concat {P : Exchange AssetCall AssetCall.Answer → Prop} {trace : AssetTrace}
    {last : Exchange AssetCall AssetCall.Answer} (h : ∀ exchange ∈ trace, P exchange)
    (hlast : P last) : ∀ exchange ∈ trace ++ [last], P exchange := by
  intro exchange hexchange
  rcases List.mem_append.mp hexchange with hearlier | hmem
  · exact h exchange hearlier
  · obtain rfl := List.mem_singleton.mp hmem
    exact hlast

/-- What holds in every state, as long as the kept paths stay. -/
structure Sound (server : AssetServer) (tree : FileTree) (kept : AbsolutePath → Prop)
    (s : OriginState) : Prop where
  stays : ∀ path, kept path → s.tree.find? path = tree.find? path
  leads : ∀ run ∈ s.runs, Leads (server.handle run.request) run.trace run.program
  agrees : ∀ run ∈ s.runs, ∀ exchange ∈ run.trace, Agrees tree kept exchange
  writes : server.WritesHashes s

theorem Sound.step (hstored : server.Stored tree kept) {s s' : OriginState} {event : OriginEvent}
    (h : Sound server tree kept s) (hkeeps : Keeps kept s event)
    (hstep : server.originStep s event = some s') : Sound server tree kept s' := by
  refine ⟨fun path hpath => ?_, leads_step hstep h.leads,
    forall_runs_step hstep h.agrees (fun _ _ hmem => absurd hmem List.not_mem_nil)
      fun hevent hmem hanswer => ?_, h.writes.step hstep h.leads⟩
  · rw [← h.stays path hpath]
    rcases files_step hstep with ⟨hsame | rfl, -⟩ |
      ⟨index, circumstances, request, trace, op, next, answer, rfl, hget, hexchange⟩
    · rw [hsame]
    · exact hkeeps path hpath
    · -- What the call changes is none of the kept paths.
      exact find?_exchange hexchange h.writes (hstored.unhashed path hpath)
        (call_confined (h.leads _ (List.mem_of_getElem? hget)))
  · -- The answer is that of the current tree, which still has the kept files.
    subst hevent
    refine forall_trace_concat (h.agrees _ hmem) ?_
    rcases answer_of_exchange hanswer with ⟨path, contents, rfl⟩ | rfl
    · trivial
    · exact agrees_answer _ hstored h.stays hkeeps

theorem sound_of_reachable (hstored : server.Stored tree kept) {s : OriginState}
    (hr : (server.serving tree).Reachable (Keeps kept) s) : Sound server tree kept s := by
  refine hr.invariant (Sound server tree kept) ?_ fun s event s' h hkeeps hstep =>
    h.step hstored hkeeps hstep
  rintro s ⟨rfl, hruns, hwriting⟩
  refine ⟨fun _ _ => rfl, ?_, ?_, ?_⟩
  · rw [hruns]
    exact fun run hmem => absurd hmem List.not_mem_nil
  · rw [hruns]
    exact fun run hmem => absurd hmem List.not_mem_nil
  · intro file hfile
    rw [hwriting] at hfile
    cases hfile

/-! ## What is served -/

/-- What a request under `/hls/` asks for. -/
structure AssetTarget where
  extension : List Char
  asset : ResolvedStreamAsset
  filePath : AbsolutePath
deriving DecidableEq

def target? (server : AssetServer) (request : AssetRequest) : Option AssetTarget :=
  (assetPath? request).bind fun path =>
    (decodeURIComponent (String.ofList path)).bind fun fileName =>
      (server.resolveStreamAsset fileName.toList).bind fun asset =>
        (resolveHlsAssetPath asset.assetDirectory asset.assetName).map fun filePath =>
          ⟨extname fileName.toList, asset, filePath⟩

/-- The segment that a target is a part of, by its name. -/
def partOf? (server : AssetServer) (target : AssetTarget) : Option (AbsolutePath × ℕ) :=
  if target.extension = ".ts".toList then
    (parsePartName target.asset.assetName).bind fun part =>
      if part.index < server.partsPerSegment then
        (resolveHlsAssetPath target.asset.assetDirectory part.segmentName).map fun segmentPath =>
          (segmentPath, part.index)
      else none
  else none

/-- What a tree holds for a target: a file, else a part of one. -/
def content? (server : AssetServer) (tree : FileTree) (target : AssetTarget) : Option (List UInt8) :=
  match tree.find? target.filePath with
  | some (.file contents) =>
      some (if target.extension = ".m3u8".toList ∧ 0 < server.partsPerSegment then
        server.playlistBody contents else contents)
  | some .directory => none
  | none => (server.partOf? target).bind fun part =>
      match tree.find? part.1 with
      | some (.file segment) => some (partBytes segment part.2 server.partsPerSegment)
      | _ => none

/-- A response with a body has these bytes, and tells their number. -/
def Shows (method : String) (bytes? : Option (List UInt8)) : OriginResponse → Prop
  | .file _ contentLength _ body => ∃ bytes, bytes? = some bytes ∧ contentLength = bytes.length ∧
      body = if method = "HEAD" then [] else bytes
  | _ => True

variable {path : AbsolutePath} {trace : AssetTrace} {method contentType : String}

theorem fileExists_agrees (hkept : kept path) :
    Ensures (Agrees tree kept) (fun _ _ => True) (fun _ found => ∀ isFile, found = .ok isFile →
      (isFile = true ↔ ∃ contents, tree.find? path = some (.file contents)) ∧
        (isFile = false ↔ tree.find? path = none)) trace (fileExists path) := by
  refine ⟨trivial, fun answer hagrees => ?_⟩
  rcases answer with error | stats
  · cases error with
    | notFound =>
        have hnone : tree.find? path = none := hagrees hkept
        rintro _ ⟨⟩
        rw [hnone]
        simp
    | _ => exact nofun
  · obtain ⟨contents, hfile, rfl⟩ := hagrees hkept
    rintro _ ⟨⟩
    rw [hfile]
    simp

theorem sendFile_shows (hkept : kept path) (cacheControl : CacheControl)
    {bytes? : Option (List UInt8)}
    (hbytes : ∀ contents, tree.find? path = some (.file contents) → bytes? = some contents) :
    Ensures (Agrees tree kept) (fun _ _ => True) (fun _ response => Shows method bytes? response)
      trace (sendFile method contentType cacheControl path) := by
  refine ⟨trivial, fun answer hagrees => ?_⟩
  rcases answer with error | stats
  · cases error <;> trivial
  · obtain ⟨contents, hfile, rfl⟩ := hagrees hkept
    dsimp only
    rw [if_pos rfl]
    by_cases hhead : method = "HEAD"
    · rw [if_pos hhead]
      exact ⟨contents, hbytes contents hfile, rfl, (if_pos hhead).symm⟩
    · rw [if_neg hhead]
      refine ⟨trivial, fun answer hread => ?_⟩
      cases answer with
      | error error => trivial
      | ok bytes =>
          obtain rfl : contents = bytes := FileTree.file_inj hfile (hread hkept)
          exact ⟨contents, hbytes contents hfile, rfl, (if_neg hhead).symm⟩

theorem sendPart_shows (hkept : kept path) {index : ℕ} {bytes? : Option (List UInt8)}
    (hbytes : ∀ segment, tree.find? path = some (.file segment) →
      bytes? = some (partBytes segment index server.partsPerSegment)) :
    Ensures (Agrees tree kept) (fun _ _ => True) (fun _ response => Shows method bytes? response)
      trace (server.sendPart method contentType path index) := by
  refine ⟨trivial, fun answer hagrees => ?_⟩
  rcases answer with error | stats
  · cases error <;> trivial
  · obtain ⟨segment, hfile, rfl⟩ := hagrees hkept
    dsimp only
    by_cases hempty : method = "HEAD" ∨
        (partRange segment.length index server.partsPerSegment).stop ≤
          (partRange segment.length index server.partsPerSegment).start
    · rw [if_pos hempty]
      refine ⟨_, hbytes segment hfile, (length_partBytes ..).symm, ?_⟩
      split_ifs with hhead
      · rfl
      · exact (partBytes_eq_nil (hempty.resolve_left hhead)).symm
    · rw [if_neg hempty]
      refine ⟨trivial, fun answer hread => ?_⟩
      cases answer with
      | error error => trivial
      | ok bytes =>
          obtain rfl : segment = bytes := FileTree.file_inj hfile (hread hkept)
          exact ⟨_, hbytes segment hfile, (length_partBytes ..).symm,
            (if_neg (not_or.mp hempty).1).symm⟩

theorem sendPlaylist_shows (hkept : kept path) {bytes? : Option (List UInt8)}
    (hbytes : ∀ contents, tree.find? path = some (.file contents) →
      bytes? = some (server.playlistBody contents)) :
    Ensures (Agrees tree kept) (fun _ _ => True) (fun _ response => Shows method bytes? response)
      trace (server.sendPlaylist method contentType path) := by
  refine ⟨trivial, fun answer hread => ?_⟩
  cases answer with
  | error error => trivial
  | ok contents => exact ⟨_, hbytes contents (hread hkept), rfl, rfl⟩

variable {target : AssetTarget}

theorem sendSegment_shows (hpath : kept target.filePath) (hextension : target.extension = ".ts".toList)
    (hpart : ∀ part, server.partOf? target = some part → kept part.1) :
    Ensures (Agrees tree kept) (fun _ _ => True)
      (fun _ response => Shows method (server.content? tree target) response) trace
      (server.sendSegment method contentType target.asset target.filePath) := by
  have hwhole : ∀ contents, tree.find? target.filePath = some (.file contents) →
      server.content? tree target = some contents := by
    intro contents hfile
    unfold content?
    rw [hfile]
    dsimp only
    rw [if_neg fun hplaylist => absurd (hextension.symm.trans hplaylist.1) (by decide)]
  refine ensures_bind.mpr ((fileExists_agrees hpath).mono fun trace found hfound => ?_)
  rcases found with error | _ | _
  · trivial
  · dsimp only
    have hnone : tree.find? target.filePath = none := (hfound false rfl).2.mp rfl
    have hpartOf : server.partOf? target =
        (parsePartName target.asset.assetName).bind fun part =>
          if part.index < server.partsPerSegment then
            (resolveHlsAssetPath target.asset.assetDirectory part.segmentName).map
              fun segmentPath => (segmentPath, part.index)
          else none := if_pos hextension
    cases hname : parsePartName target.asset.assetName with
    | none => exact sendFile_shows hpath _ hwhole
    | some part =>
        rw [hname, Option.bind_some] at hpartOf
        dsimp only
        by_cases hindex : part.index < server.partsPerSegment
        · rw [if_pos hindex] at hpartOf ⊢
          cases hresolve : resolveHlsAssetPath target.asset.assetDirectory part.segmentName with
          | none => trivial
          | some segmentPath =>
              rw [hresolve, Option.map_some] at hpartOf
              refine sendPart_shows (hpart _ hpartOf) fun segment hsegment => ?_
              unfold content?
              rw [hnone, hpartOf]
              dsimp only
              rw [Option.bind_some, hsegment]
        · rw [if_neg hindex]
          exact sendFile_shows hpath _ hwhole
  · exact sendFile_shows hpath _ hwhole

theorem sendAsset_shows (hpath : kept target.filePath)
    (hextension : target.extension ≠ ".sha256".toList)
    (hpart : ∀ part, server.partOf? target = some part → kept part.1) :
    Ensures (Agrees tree kept) (fun _ _ => True)
      (fun _ response => Shows method (server.content? tree target) response) trace
      (server.sendAsset method target.extension contentType target.asset target.filePath) := by
  have hwhole : ¬ (target.extension = ".m3u8".toList ∧ 0 < server.partsPerSegment) →
      ∀ contents, tree.find? target.filePath = some (.file contents) →
        server.content? tree target = some contents := by
    intro hplain contents hfile
    unfold content?
    rw [hfile]
    exact congrArg some (if_neg hplain)
  unfold sendAsset
  -- The branches of the source: segments and their parts, playlists, whole files.
  by_cases hts : target.extension = ".ts".toList ∧ 0 < server.partsPerSegment
  · rw [if_pos hts]
    exact sendSegment_shows hpath hts.1 hpart
  rw [if_neg hts]
  by_cases hplaylist : target.extension = ".m3u8".toList
  · rw [if_pos hplaylist]
    by_cases hparts : 0 < server.partsPerSegment
    · rw [if_pos hparts]
      refine ensures_bind.mpr ((fileExists_agrees hpath).mono fun trace found hfound => ?_)
      rcases found with error | _ | _
      · trivial
      · have hnone : tree.find? target.filePath = none := (hfound false rfl).2.mp rfl
        refine sendFile_shows hpath _ fun contents hfile => ?_
        rw [hnone] at hfile
        cases hfile
      · refine sendPlaylist_shows hpath fun contents hfile => ?_
        unfold content?
        rw [hfile]
        exact congrArg some (if_pos ⟨hplaylist, hparts⟩)
    · rw [if_neg hparts]
      exact sendFile_shows hpath _ (hwhole fun h => hparts h.2)
  · rw [if_neg hplaylist, if_neg hextension]
    exact sendFile_shows hpath _ (hwhole fun h => hplaylist h.1)

/-- What a request with a target runs. -/
theorem handle_of_target {request : AssetRequest} (htarget : server.target? request = some target) :
    (∃ statusCode error, server.handle request = .done (.json statusCode error)) ∨
      ∃ contentType, server.handle request =
        server.sendAsset request.method target.extension contentType target.asset
          target.filePath := by
  obtain ⟨path, hpath, hrest⟩ := Option.bind_eq_some_iff.mp htarget
  obtain ⟨fileName, hdecode, hrest⟩ := Option.bind_eq_some_iff.mp hrest
  obtain ⟨asset, hasset, hrest⟩ := Option.bind_eq_some_iff.mp hrest
  obtain ⟨filePath, hresolve, rfl⟩ := Option.map_eq_some_iff.mp hrest
  obtain ⟨pathname, hpathname, hprefix⟩ := Option.bind_eq_some_iff.mp hpath
  have hhealth : ¬ isHealth request := by
    rintro ⟨-, hhealth⟩
    rw [hpathname, Option.some.injEq] at hhealth
    rw [hhealth] at hprefix
    cases hprefix
  unfold handle
  rw [if_neg (by rw [hpathname]; exact Option.some_ne_none _), if_neg hhealth, hpath]
  dsimp only
  by_cases hmethod : request.method = "GET" ∨ request.method = "HEAD"
  · rw [if_pos hmethod, hdecode]
    dsimp only
    unfold serveAsset
    split_ifs with hsafe
    · exact Or.inl ⟨_, _, rfl⟩
    · cases contentTypes.lookup (String.ofList (extname fileName.toList)) with
      | none => exact Or.inl ⟨_, _, rfl⟩
      | some contentType =>
          dsimp only
          rw [hasset]
          dsimp only
          rw [hresolve]
          exact Or.inr ⟨contentType, rfl⟩
  · rw [if_neg hmethod]
    exact Or.inl ⟨_, _, rfl⟩

/-- The files of a directory under their names. -/
def filesOf (tree : FileTree) (directory : AbsolutePath) (name : List Char) : Option (List UInt8) :=
  (resolveHlsAssetPath directory name).bind fun path => (tree.readFile path).toOption

/-- What the handler of parts alone answers is what the tree holds for the target. -/
theorem content?_of_handlePart {contentLength : ℕ} {body : List UInt8}
    (hextension : target.extension = ".ts".toList)
    (hpath : resolveHlsAssetPath target.asset.assetDirectory target.asset.assetName =
      some target.filePath)
    (hdirectory : tree.find? target.filePath ≠ some .directory)
    (h : handlePart (filesOf tree target.asset.assetDirectory) server.partsPerSegment .get
      target.asset.assetName = some (.part contentLength body)) :
    server.content? tree target = some body ∧ contentLength = body.length := by
  unfold handlePart at h
  split_ifs at h with hnone
  obtain ⟨-, hfile⟩ := not_or.mp hnone
  obtain ⟨part, hname, hpart⟩ := Option.bind_eq_some_iff.mp h
  split_ifs at hpart with hindex
  have hmissing : tree.find? target.filePath = none := by
    unfold filesOf at hfile
    rw [hpath, Option.bind_some] at hfile
    cases hentry : tree.find? target.filePath with
    | none => rfl
    | some entry =>
        cases entry with
        | directory => exact absurd hentry hdirectory
        | file contents =>
            rw [FileTree.readFile_of_file hentry] at hfile
            exact absurd rfl hfile
  cases hsegment : filesOf tree target.asset.assetDirectory part.segmentName with
  | none =>
      rw [hsegment] at hpart
      cases hpart
  | some segment =>
      rw [hsegment, sendPart_get] at hpart
      obtain ⟨segmentPath, hresolve, hread⟩ := Option.bind_eq_some_iff.mp hsegment
      have hstored : tree.find? segmentPath = some (.file segment) := by
        cases hanswer : tree.readFile segmentPath with
        | error error =>
            rw [hanswer] at hread
            cases hread
        | ok contents =>
            rw [hanswer] at hread
            obtain rfl := Option.some.inj hread
            exact FileTree.file_of_readFile hanswer
      have hpartOf : server.partOf? target = some (segmentPath, part.index) := by
        unfold partOf?
        rw [if_pos hextension, hname, Option.bind_some, if_pos hindex, hresolve]
        rfl
      injection hpart with hpart
      injection hpart with hlength hbody
      subst hbody
      refine ⟨?_, hlength.symm⟩
      unfold content?
      rw [hmissing, hpartOf]
      dsimp only
      rw [Option.bind_some, hstored]
theorem Sound.shows {s : OriginState} (h : Sound server tree kept s) {run : AssetRun}
    (hrun : run ∈ s.runs) {response : OriginResponse} (hdone : run.program = .done response)
    (htarget : server.target? run.request = some target)
    (hextension : target.extension ≠ ".sha256".toList) (hpath : kept target.filePath)
    (hpart : ∀ part, server.partOf? target = some part → kept part.1) :
    Shows run.request.method (server.content? tree target) response := by
  have hensures : Ensures (Agrees tree kept) (fun _ _ => True)
      (fun _ response => Shows run.request.method (server.content? tree target) response) []
      (server.handle run.request) := by
    rcases handle_of_target htarget with ⟨statusCode, error, hrefused⟩ | ⟨contentType, hsend⟩
    · rw [hrefused]
      trivial
    · rw [hsend]
      exact sendAsset_shows hpath hextension hpart
  have hleads := h.leads run hrun
  rw [hdone] at hleads
  exact (Ensures.of_leads hleads (h.agrees run hrun) hensures).2

theorem getLast?_extend_sidecarSuffix (h : path ≠ []) :
    (path.extend sidecarSuffix).text.getLast? = some '6' := by
  rw [AbsolutePath.text_extend h]
  exact SegmentPath.getLast?_of_suffix (by decide) (List.suffix_append _ SIDECAR_SUFFIX)

theorem getLast?_extend_temporarySuffix (h : path ≠ []) (pid : ℕ) :
    (path.extend (temporarySuffix pid)).text.getLast? = some 'p' := by
  rw [AbsolutePath.text_extend h, temporarySuffix]
  refine @SegmentPath.getLast?_of_suffix ".tmp".toList _ (by decide) ?_
  exact ⟨path.text ++ (SIDECAR_SUFFIX ++ '.' :: Nat.toDigits 10 pid), by simp⟩

/-- The endings of segments, initialization segments and playlists are not those of hash files. -/
theorem not_hashFile (hsidecar : path.text.getLast? ≠ some '6')
    (htemporary : path.text.getLast? ≠ some 'p') : ¬ server.HashFile path := by
  rintro ⟨directory, -, segmentName, segment, hsegment, rfl | rfl⟩
  · exact hsidecar (getLast?_extend_sidecarSuffix hsegment.below.ne_nil)
  · exact htemporary (getLast?_extend_temporarySuffix hsegment.below.ne_nil _)

/-- A finished request for a part of a segment. -/
def PartFetched (server : AssetServer) (tree : FileTree) (kept : AbsolutePath → Prop)
    (s : OriginState) (segmentPath : AbsolutePath) (index : ℕ) (body : List UInt8) : Prop :=
  ∃ run ∈ s.runs, run.request.method = "GET" ∧
    (∃ contentType contentLength cacheControl,
      run.program = .done (.file contentType contentLength cacheControl body)) ∧
    ∃ target, server.target? run.request = some target ∧
      server.partOf? target = some (segmentPath, index) ∧
      kept target.filePath ∧ tree.find? target.filePath = none

theorem Sound.part {s : OriginState} (h : Sound server tree kept s) {segmentPath : AbsolutePath}
    {segment : List UInt8} (hsegment : kept segmentPath)
    (hfile : tree.find? segmentPath = some (.file segment)) {index : ℕ} {body : List UInt8}
    (hfetched : PartFetched server tree kept s segmentPath index body) :
    body = partBytes segment index server.partsPerSegment := by
  obtain ⟨run, hrun, hget, ⟨_, _, _, hdone⟩, target, htarget, hpart, hpath, hnone⟩ := hfetched
  -- A part has the name of a segment, so no sidecar is written for it.
  have hextension : target.extension ≠ ".sha256".toList := by
    intro hsidecar
    unfold partOf? at hpart
    rw [hsidecar, if_neg (by decide)] at hpart
    cases hpart
  have hkept : ∀ part, server.partOf? target = some part → kept part.1 := by
    intro part hpart'
    obtain rfl := Option.some.inj (hpart.symm.trans hpart')
    exact hsegment
  obtain ⟨bytes, hcontent, -, hbody⟩ := h.shows hrun hdone htarget hextension hpath hkept
  rw [hget, if_neg (by decide)] at hbody
  unfold content? at hcontent
  rw [hnone, hpart] at hcontent
  dsimp only at hcontent
  rw [Option.bind_some, hfile] at hcontent
  rw [hbody]
  exact (Option.some.inj hcontent).symm

/-! ## Two players and a sidecar -/

def liveFile (name : List Char) : AbsolutePath := AbsolutePath.resolve [] ("/hls/live/".toList ++ name)

def liveSegment : List UInt8 := List.replicate 188 71 ++ List.replicate 189 72

def liveTree : FileTree where
  entries := ⟨[(AbsolutePath.resolve [] "/hls".toList, .directory), (liveFile [], .directory),
    (liveFile "a.ts".toList, .file liveSegment)], by decide +kernel⟩
  placed := by decide +kernel

def liveFiles : List AbsolutePath :=
  [liveFile "a.ts".toList, liveFile (partName ['a'] 0), liveFile (partName ['a'] 1)]

theorem liveTree_stored : liveServer.Stored liveTree (· ∈ liveFiles) where
  file := by decide +kernel
  unhashed := by
    have hendings : ∀ path ∈ liveFiles, path.text.getLast? ≠ some '6' ∧
        path.text.getLast? ≠ some 'p' := by decide +kernel
    exact fun path hpath => not_hashFile (hendings path hpath).1 (hendings path hpath).2

def assetRequest (name : List Char) : AssetRequest := ⟨"GET", some ("/hls/live/".toList ++ name)⟩

def calls (indexes : List ℕ) : List OriginEvent :=
  indexes.map fun index => .call index ⟨none, 0, 0, none⟩

/-- The parts are fetched while the sidecar is written. -/
def twoParts : List OriginEvent :=
  [.request (assetRequest (partName ['a'] 0)), .request (assetRequest (partName ['a'] 1)),
    .request (assetRequest "a.ts.sha256".toList)] ++ calls [1, 0, 2, 2, 2, 1, 2, 2, 2, 1, 2, 0, 0]

theorem runOk_calls {ok : OriginState → OriginEvent → Prop}
    (hok : ∀ s index, ok s (.call index ⟨none, 0, 0, none⟩)) (indexes : List ℕ) :
    ∀ s, (liveServer.serving liveTree).RunOk ok s (calls indexes) := by
  induction indexes with
  | nil => exact fun s => trivial
  | cons index indexes ih => exact fun s => ⟨hok s index, fun s' _ => ih s'⟩

theorem runOk_twoParts {kept : AbsolutePath → Prop} (s : OriginState) :
    (liveServer.serving liveTree).RunOk (Keeps kept) s twoParts :=
  ⟨trivial, fun _ _ => ⟨trivial, fun _ _ => ⟨trivial, fun _ _ => runOk_calls (fun _ _ => nofun) _ _⟩⟩⟩

def partBody (index : ℕ) : List UInt8 := partBytes liveSegment index 2

theorem exists_twoParts : ∃ s, (liveServer.serving liveTree).Reachable (Keeps (· ∈ liveFiles)) s ∧
    ∀ index < 2, ∃ run ∈ s.runs, run.request = assetRequest (partName ['a'] index) ∧
      run.program = .done
        (.file "video/mp2t" (partBody index).length .immutable (partBody index)) := by
  have hruns : ((liveServer.serving liveTree).run ⟨liveTree, [], []⟩ twoParts).map (fun s =>
      (s.runs.take 2).map fun run => (run.request, run.program.result?)) =
        some ((List.range 2).map fun index => (assetRequest (partName ['a'] index),
          some (.file "video/mp2t" (partBody index).length .immutable (partBody index)))) := by
    decide +kernel
  obtain ⟨s, hrun, hresults⟩ := Option.map_eq_some_iff.mp hruns
  have hstart : (liveServer.serving liveTree).Reachable (Keeps (· ∈ liveFiles)) ⟨liveTree, [], []⟩ :=
    .init ⟨rfl, rfl, rfl⟩
  refine ⟨s, hstart.append_run (runOk_twoParts _) hrun, fun index hindex => ?_⟩
  have hmem := List.mem_map_of_mem (f := fun index => (assetRequest (partName ['a'] index),
    some (OriginResponse.file "video/mp2t" (partBody index).length .immutable (partBody index))))
    (List.mem_range.mpr hindex)
  rw [← hresults] at hmem
  obtain ⟨run, hrun', hpair⟩ := List.mem_map.mp hmem
  injection hpair with hrequest hresult
  exact ⟨run, List.mem_of_mem_take hrun', hrequest, eq_done_of_result? hresult⟩

theorem partOf?_livePart : ∀ index < 2, ∃ target,
    liveServer.target? (assetRequest (partName ['a'] index)) = some target ∧
      target.extension = ".ts".toList ∧
      liveServer.partOf? target = some (liveFile "a.ts".toList, index) ∧
      target.filePath ∈ liveFiles ∧ liveTree.find? target.filePath = none := by
  intro index hindex
  have htargets : ∀ index < 2, (liveServer.target? (assetRequest (partName ['a'] index))).any
      (fun target => target.extension = ".ts".toList ∧
        liveServer.partOf? target = some (liveFile "a.ts".toList, index) ∧
        target.filePath ∈ liveFiles ∧ liveTree.find? target.filePath = none) = true := by
    decide +kernel
  have hall := htargets index hindex
  cases htarget : liveServer.target? (assetRequest (partName ['a'] index)) with
  | none =>
      rw [htarget] at hall
      cases hall
  | some target =>
      rw [htarget] at hall
      exact ⟨target, rfl, of_decide_eq_true hall⟩

/-! ## Runs -/

/-- Whatever other requests run and others change, a file that is left alone is served as it stands
from the start, and so are its parts. -/
theorem stored_files_served (hstored : server.Stored tree kept) {s : OriginState}
    (hr : (server.serving tree).Reachable (Keeps kept) s) {run : AssetRun} (hrun : run ∈ s.runs)
    {response : OriginResponse} (hdone : run.program = .done response)
    (htarget : server.target? run.request = some target)
    (hextension : target.extension ≠ ".sha256".toList) (hpath : kept target.filePath)
    (hpart : ∀ part, server.partOf? target = some part → kept part.1) :
    Shows run.request.method (server.content? tree target) response :=
  (sound_of_reachable hstored hr).shows hrun hdone htarget hextension hpath hpart

theorem livePart_served : ∃ target,
    liveServer.target? (assetRequest (partName ['a'] 1)) = some target ∧
      Shows "GET" (liveServer.content? liveTree target)
        (.file "video/mp2t" (partBody 1).length .immutable (partBody 1)) := by
  obtain ⟨s, hr, hfetched⟩ := exists_twoParts
  obtain ⟨run, hrun, hrequest, hdone⟩ := hfetched 1 (by decide)
  obtain ⟨target, htarget, hextension, hpart, hpath, -⟩ := partOf?_livePart 1 (by decide)
  have hkept : ∀ part, liveServer.partOf? target = some part → part.1 ∈ liveFiles := by
    intro part hpart'
    obtain rfl := Option.some.inj (hpart.symm.trans hpart')
    exact List.mem_cons_self
  have hplain : target.extension ≠ ".sha256".toList := by
    rw [hextension]
    decide
  have hshows := stored_files_served liveTree_stored hr hrun hdone (hrequest ▸ htarget) hplain hpath
    hkept
  rw [hrequest] at hshows
  exact ⟨target, htarget, hshows⟩

/-- The parts of a segment, fetched in any order among other requests, are the segment. -/
theorem fetched_parts_reassemble (hstored : server.Stored tree kept) {s : OriginState}
    (hr : (server.serving tree).Reachable (Keeps kept) s) {segmentPath : AbsolutePath}
    {segment : List UInt8} (hsegment : kept segmentPath)
    (hfile : tree.find? segmentPath = some (.file segment)) {bodies : ℕ → List UInt8}
    (hparts : 0 < server.partsPerSegment) (hfetched : ∀ index < server.partsPerSegment,
      PartFetched server tree kept s segmentPath index (bodies index)) :
    ((List.range server.partsPerSegment).map bodies).flatten = segment := by
  have hsound := sound_of_reachable hstored hr
  have hbodies : (List.range server.partsPerSegment).map bodies =
      (List.range server.partsPerSegment).map fun index =>
        partBytes segment index server.partsPerSegment :=
    List.map_congr_left fun index hindex =>
      hsound.part hsegment hfile (hfetched index (List.mem_range.mp hindex))
  rw [hbodies, flatten_partBytes segment hparts]

theorem liveParts_reassemble : ((List.range 2).map partBody).flatten = liveSegment := by
  obtain ⟨s, hr, hfetched⟩ := exists_twoParts
  refine fetched_parts_reassemble liveTree_stored hr 
    (List.mem_cons_self : liveFile "a.ts".toList ∈ liveFiles) (by decide +kernel) (by decide)
    fun index hindex => ?_
  obtain ⟨run, hrun, hrequest, hdone⟩ := hfetched index hindex
  obtain ⟨target, htarget, -, hpart, hpath, hnone⟩ := partOf?_livePart index hindex
  refine ⟨run, hrun, by rw [hrequest]; rfl, ⟨_, _, _, hdone⟩, target, ?_, hpart, hpath, hnone⟩
  rw [hrequest]
  exact htarget

end AssetServer

end OpenStreamGrid
