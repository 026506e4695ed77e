import OpenStreamGrid.Origin.AssetServer

/-!
# What a request reaches

The name in a request is free text, and other requests and FFmpeg change the files
meanwhile. Whatever the calls are answered, a request stays in the directory of its
stream, writes nothing there but the sidecar of a segment that it has just read, and
sends what it has read.
-/

namespace OpenStreamGrid

abbrev AssetTrace : Type := List (Program.Exchange AssetCall AssetCall.Answer)

/-- A media segment of a stream, under its name there. -/
structure SegmentIn (directory : AbsolutePath) (segmentName : List Char) (segment : AbsolutePath) :
    Prop where
  resolved : segment = directory.resolve segmentName
  below : directory.Below segment
  media : isMediaSegmentPath (String.ofList segmentName) = true

namespace AssetServer

open Origin Program

variable (server : AssetServer)

/-- What a request for a stream may call, after what was exchanged. -/
def Confined (directory : AbsolutePath) (trace : AssetTrace) : AssetCall → Prop
  | .stat path | .access path | .readFile path => directory.Below path
  | .writeFile path contents => ∃ segmentName segment bytes,
      SegmentIn directory segmentName segment ∧
        path = segment.extend (temporarySuffix server.process.pid) ∧
        contents = server.hashLine segmentName bytes ∧
        trace.getLast? = some ⟨.readFile segment, .ok bytes⟩
  | .rename path path' => ∃ segmentName segment contents,
      SegmentIn directory segmentName segment ∧
        path = segment.extend (temporarySuffix server.process.pid) ∧
        path' = segment.extend sidecarSuffix ∧
        trace.getLast? = some ⟨.writeFile path contents, .ok ()⟩
  | .pendingHash directory' segmentName =>
      directory' = directory ∧ ∃ segment, SegmentIn directory segmentName segment

/-- A body is a slice of a file that was read, or a playlist that was. -/
def Delivered (trace : AssetTrace) : OriginResponse → Prop
  | .file _ _ _ body => body = [] ∨ ∃ path contents, ⟨.readFile path, .ok contents⟩ ∈ trace ∧
      (body <:+: contents ∨ body = server.playlistBody contents)
  | _ => True

/-- The directory of the stream that a request is for. -/
def directory? (request : AssetRequest) : Option AbsolutePath :=
  (assetPath? request).bind fun path =>
    (decodeURIComponent (String.ofList path)).bind fun fileName =>
      (server.resolveStreamAsset fileName.toList).map ResolvedStreamAsset.assetDirectory

/-- The three ways a request ends. -/
inductive Answered (request : AssetRequest) (trace : AssetTrace) (response : OriginResponse) :
    Prop where
  | health : isHealth request →
      (∀ exchange ∈ trace, ∃ directory ∈ server.directories,
        exchange.1 = .stat (server.playlistPath directory)) → Answered request trace response
  | asset (directory : AbsolutePath) : server.directory? request = some directory →
      directory ∈ server.directories →
      (∀ before exchange after, trace = before ++ exchange :: after →
        server.Confined directory before exchange.1) →
      server.Delivered trace response → Answered request trace response
  | refused (statusCode : ℕ) (error : String) : trace = [] →
      response = .json statusCode error → Answered request trace response

/-! ## Names -/

theorem below_of_resolveHlsAssetPath {directory path : AbsolutePath} {fileName : List Char}
    (h : resolveHlsAssetPath directory fileName = some path) :
    path = directory.resolve fileName ∧ directory.Below path := by
  unfold resolveHlsAssetPath at h
  dsimp only at h
  split_ifs at h with hprefix
  obtain rfl := Option.some.inj h
  exact ⟨rfl, AbsolutePath.below_of_text (List.isPrefixOf_iff_prefix.mp hprefix)⟩

/-- A request is for a stream that the server has. -/
theorem resolveStreamAsset_mem {server : AssetServer} {fileName : List Char}
    {asset : ResolvedStreamAsset} (h : server.resolveStreamAsset fileName = some asset) :
    asset.assetDirectory ∈ server.directories := by
  unfold resolveStreamAsset at h
  unfold directories
  cases hstreams : server.streams with
  | single =>
      simp only [hstreams] at h ⊢
      obtain rfl := Option.some.inj h
      exact List.mem_singleton_self _
  | multi streamIds =>
      simp only [hstreams] at h ⊢
      split_ifs at h with hnamed
      · obtain rfl := Option.some.inj h
        obtain ⟨streamId, hmem, hsame⟩ := List.any_eq_true.mp hnamed.2.2
        rw [decide_eq_true_eq] at hsame
        rw [← hsame]
        exact List.mem_map_of_mem hmem
      · split at h
        · obtain rfl := Option.some.inj h
          exact List.mem_singleton_self _
        · cases h

/-! ## Looking for files -/

variable {server} {directory path : AbsolutePath} {trace : AssetTrace}

theorem fileExists_ensures {A : Exchange AssetCall AssetCall.Answer → Prop}
    {P : AssetTrace → AssetCall → Prop} (hstat : P trace (.stat path)) :
    Ensures A P (fun _ _ => True) trace (fileExists path) := by
  refine ⟨hstat, fun answer _ => ?_⟩
  rcases answer with error | stats
  · cases error <;> trivial
  · trivial

theorem fileExists_confined (hpath : directory.Below path) :
    Ensures (fun _ => True) (server.Confined directory) (fun _ _ => True) trace
      (fileExists path) := fileExists_ensures hpath

/-! ## Sending files -/

theorem sendFile_confined (hpath : directory.Below path) (method contentType : String)
    (cacheControl : CacheControl) :
    Ensures (fun _ => True) (server.Confined directory) server.Delivered trace
      (sendFile method contentType cacheControl path) := by
  refine ⟨hpath, fun answer _ => ?_⟩
  rcases answer with error | stats
  · cases error <;> trivial
  · dsimp only
    split_ifs with hfile hhead
    · exact Or.inl rfl
    · refine ⟨hpath, fun answer _ => ?_⟩
      cases answer with
      | error error => trivial
      | ok contents =>
          exact Or.inr ⟨path, contents, List.mem_concat_self, Or.inl List.infix_rfl⟩
    · trivial

theorem sendPart_confined (hpath : directory.Below path) (method contentType : String)
    (index : ℕ) : Ensures (fun _ => True) (server.Confined directory) server.Delivered trace
      (server.sendPart method contentType path index) := by
  refine ⟨hpath, fun answer _ => ?_⟩
  rcases answer with error | stats
  · cases error <;> trivial
  · dsimp only
    split_ifs with hempty
    · exact Or.inl rfl
    · refine ⟨hpath, fun answer _ => ?_⟩
      cases answer with
      | error error => trivial
      | ok contents =>
          refine Or.inr ⟨path, contents, List.mem_concat_self, Or.inl ?_⟩
          exact (List.take_prefix _ _).isInfix.trans (List.drop_suffix _ _).isInfix

theorem sendPlaylist_confined (hpath : directory.Below path) (method contentType : String) :
    Ensures (fun _ => True) (server.Confined directory) server.Delivered trace
      (server.sendPlaylist method contentType path) := by
  refine ⟨hpath, fun answer _ => ?_⟩
  cases answer with
  | error error => trivial
  | ok contents =>
      by_cases hhead : method = "HEAD"
      · exact Or.inl (if_pos hhead)
      · exact Or.inr ⟨path, contents, List.mem_concat_self, Or.inr (if_neg hhead)⟩

/-! ## Writing hashes -/

variable {segmentName : List Char} {segment : AbsolutePath}

/-- A path that is returned is below the directory. -/
def Ready {ε : Type} (directory : AbsolutePath) : AssetTrace → Except ε AbsolutePath → Prop
  | _, .ok path => directory.Below path
  | _, .error _ => True

theorem writeHashFile_confined (hsegment : SegmentIn directory segmentName segment) :
    Ensures (fun _ => True) (server.Confined directory) (Ready directory) trace
      (server.writeHashFile segmentName segment) := by
  refine ⟨hsegment.below, fun answer _ => ?_⟩
  cases answer with
  | error error => trivial
  | ok bytes =>
      refine ⟨⟨segmentName, segment, bytes, hsegment, rfl, rfl, List.getLast?_concat⟩,
        fun answer _ => ?_⟩
      cases answer with
      | error error => trivial
      | ok written =>
          refine ⟨⟨segmentName, segment, _, hsegment, rfl, rfl, List.getLast?_concat⟩,
            fun answer _ => ?_⟩
          cases answer with
          | error error => trivial
          | ok renamed => exact hsegment.below.extend sidecarSuffix

theorem createHashFile_confined (hsegment : SegmentIn directory segmentName segment) :
    Ensures (fun _ => True) (server.Confined directory) (Ready directory) trace
      (server.createHashFile segmentName segment) := by
  refine ⟨hsegment.below.extend sidecarSuffix, fun answer _ => ?_⟩
  rcases answer with error | found
  · cases error with
    | notFound => exact writeHashFile_confined hsegment
    | _ => trivial
  · exact hsegment.below.extend sidecarSuffix

theorem ensureHash_confined : Ensures (fun _ => True) (server.Confined directory)
    (Ready directory) trace (server.ensureHash directory segmentName) := by
  unfold ensureHash
  split_ifs with hmedia
  · cases hresolve : resolveHlsAssetPath directory segmentName with
    | none => trivial
    | some segment =>
        obtain ⟨hresolved, hbelow⟩ := below_of_resolveHlsAssetPath hresolve
        have hsegment : SegmentIn directory segmentName segment := ⟨hresolved, hbelow, hmedia⟩
        refine ⟨⟨rfl, segment, hsegment⟩, fun answer _ => ?_⟩
        -- Only where no other request writes the hash is it written here.
        rcases answer with _ | error | pending
        · refine ensures_bind.mpr ((createHashFile_confined hsegment).mono fun trace created h => ?_)
          cases created with
          | error error => trivial
          | ok path => exact h
        · trivial
        · exact hbelow.extend sidecarSuffix
  · trivial

/-! ## Answering requests -/

theorem sendSidecar_confined (hpath : directory.Below path) (method contentType : String)
    {asset : ResolvedStreamAsset} (hasset : asset.assetDirectory = directory) :
    Ensures (fun _ => True) (server.Confined directory) server.Delivered trace
      (server.sendSidecar method contentType asset path) := by
  refine ensures_bind.mpr ((fileExists_confined hpath).mono fun trace found _ => ?_)
  rcases found with error | _ | _
  · trivial
  · dsimp only
    split_ifs with hmedia
    · rw [hasset]
      refine ensures_bind.mpr (ensureHash_confined.mono fun trace hash h => ?_)
      rcases hash with (_ | error) | hashPath
      · trivial
      · cases error with
        | notFound => exact sendFile_confined hpath _ _ _
        | _ => trivial
      · -- The path that was returned is below the directory as well.
        exact sendFile_confined h _ _ _
    · trivial
  · exact sendFile_confined hpath _ _ _

theorem sendSegment_confined (hpath : directory.Below path) (method contentType : String)
    {asset : ResolvedStreamAsset} (hasset : asset.assetDirectory = directory) :
    Ensures (fun _ => True) (server.Confined directory) server.Delivered trace
      (server.sendSegment method contentType asset path) := by
  refine ensures_bind.mpr ((fileExists_confined hpath).mono fun trace found _ => ?_)
  rcases found with error | _ | _
  · trivial
  · dsimp only
    cases parsePartName asset.assetName with
    | none => exact sendFile_confined hpath _ _ _
    | some part =>
        dsimp only
        split_ifs with hindex
        · cases hresolve : resolveHlsAssetPath asset.assetDirectory part.segmentName with
          | none => trivial
          | some segmentPath =>
              rw [hasset] at hresolve
              exact sendPart_confined (below_of_resolveHlsAssetPath hresolve).2 _ _ _
        · exact sendFile_confined hpath _ _ _
  · exact sendFile_confined hpath _ _ _

theorem sendAsset_confined (hpath : directory.Below path) (method : String) (extension : List Char)
    (contentType : String) {asset : ResolvedStreamAsset}
    (hasset : asset.assetDirectory = directory) :
    Ensures (fun _ => True) (server.Confined directory) server.Delivered trace
      (server.sendAsset method extension contentType asset path) := by
  unfold sendAsset
  split_ifs with hpart hplaylist hparts hsidecar
  · exact sendSegment_confined hpath _ _ hasset
  · refine ensures_bind.mpr ((fileExists_confined hpath).mono fun trace found _ => ?_)
    rcases found with error | _ | _
    · trivial
    · exact sendFile_confined hpath _ _ _
    · exact sendPlaylist_confined hpath _ _
  · exact sendFile_confined hpath _ _ _
  · exact sendSidecar_confined hpath _ _ hasset
  · exact sendFile_confined hpath _ _ _

theorem playlistsAvailable_confined {P : AssetTrace → AssetCall → Prop} {paths : List AbsolutePath}
    (hpaths : ∀ path ∈ paths, ∀ trace, P trace (.stat path)) : ∀ {trace : AssetTrace},
    Ensures (fun _ => True) P (fun _ _ => True) trace (playlistsAvailable paths) := by
  induction paths with
  | nil => exact trivial
  | cons path paths ih =>
      intro trace
      refine ensures_bind.mpr ((fileExists_ensures (hpaths path List.mem_cons_self trace)).mono
        fun trace available _ => ?_)
      exact ensures_bind.mpr ((ih fun path hmem => hpaths path (List.mem_cons_of_mem _ hmem)).mono
        fun trace others _ => trivial)

/-- A request for the health looks at the playlists of the streams. -/
theorem health_confined : Ensures (fun _ => True) (fun _ op => ∃ directory ∈ server.directories,
      op = .stat (server.playlistPath directory)) (fun _ _ => True) trace server.health := by
  refine ensures_bind.mpr ((playlistsAvailable_confined fun path hpath trace => ?_).mono
    fun trace answers _ => ?_)
  · obtain ⟨directory, hmem, rfl⟩ := List.mem_map.mp hpath
    exact ⟨directory, hmem, rfl⟩
  · cases answers.mapM id <;> trivial

/-- A request under `/hls/`: refused without a call, or answered from the directory of its stream. -/
theorem serveAsset_confined (method : String) (fileName : List Char) :
    (∃ statusCode error, server.serveAsset method fileName = .done (.json statusCode error)) ∨
      ∃ asset, server.resolveStreamAsset fileName = some asset ∧
        Ensures (fun _ => True) (server.Confined asset.assetDirectory) server.Delivered []
          (server.serveAsset method fileName) := by
  unfold serveAsset
  split_ifs with hsafe
  · exact Or.inl ⟨_, _, rfl⟩
  · cases contentTypes.lookup (String.ofList (extname fileName)) with
    | none => exact Or.inl ⟨_, _, rfl⟩
    | some contentType =>
        cases server.resolveStreamAsset fileName with
        | none => exact Or.inl ⟨_, _, rfl⟩
        | some asset =>
            dsimp only
            cases hresolve : resolveHlsAssetPath asset.assetDirectory asset.assetName with
            | none => exact Or.inl ⟨_, _, rfl⟩
            | some filePath =>
                exact Or.inr ⟨asset, rfl,
                  sendAsset_confined (below_of_resolveHlsAssetPath hresolve).2 _ _ _ rfl⟩

/-- What a request runs: a refusal, the health, or what stays in the directory of its stream. -/
theorem handle_confined (request : AssetRequest) :
    (∃ statusCode error, server.handle request = .done (.json statusCode error)) ∨
      (isHealth request ∧ server.handle request = server.health) ∨
      ∃ directory, server.directory? request = some directory ∧ directory ∈ server.directories ∧
        Ensures (fun _ => True) (server.Confined directory) server.Delivered []
          (server.handle request) := by
  unfold handle
  by_cases htarget : request.pathname = none
  · rw [if_pos htarget]
    exact Or.inl ⟨_, _, rfl⟩
  rw [if_neg htarget]
  by_cases hhealth : isHealth request
  · rw [if_pos hhealth]
    exact Or.inr (Or.inl ⟨hhealth, rfl⟩)
  rw [if_neg hhealth]
  cases hpath : assetPath? request with
  | none => exact Or.inl ⟨_, _, rfl⟩
  | some path =>
      dsimp only
      by_cases hmethod : request.method = "GET" ∨ request.method = "HEAD"
      · rw [if_pos hmethod]
        cases hdecode : decodeURIComponent (String.ofList path) with
        | none => exact Or.inl ⟨_, _, rfl⟩
        | some fileName =>
            rcases server.serveAsset_confined request.method fileName.toList with
              hrefused | ⟨asset, hasset, hensures⟩
            · exact Or.inl hrefused
            · refine Or.inr (Or.inr ⟨asset.assetDirectory, ?_, resolveStreamAsset_mem hasset,
                hensures⟩)
              rw [directory?, hpath, Option.bind_some, hdecode, Option.bind_some, hasset,
                Option.map_some]
      · rw [if_neg hmethod]
        exact Or.inl ⟨_, _, rfl⟩

/-- The next call of a request. -/
theorem call_confined {request : AssetRequest} {op : AssetCall}
    {next : op.Answer → AssetProgram OriginResponse}
    (hleads : Leads (server.handle request) trace (.call op next)) :
    (∃ path, op = .stat path) ∨ ∃ directory ∈ server.directories,
      server.Confined directory trace op := by
  rcases server.handle_confined request with ⟨_, _, hrefused⟩ | ⟨-, hhealth⟩ |
    ⟨directory, -, hmem, hensures⟩
  · rw [hrefused] at hleads
    cases hleads
  · rw [hhealth] at hleads
    obtain ⟨-, hrest⟩ := Ensures.of_leads hleads (fun _ _ => trivial) (@health_confined server [])
    obtain ⟨directory, -, rfl⟩ := hrest.1
    exact Or.inl ⟨_, rfl⟩
  · exact Or.inr ⟨directory, hmem, (Ensures.of_leads hleads (fun _ _ => trivial) hensures).2.1⟩

/-- A request stays in the directory of its stream and writes nothing but sidecars. -/
theorem requests_confined {request : AssetRequest} {response : OriginResponse}
    (hruns : Runs (server.handle request) trace response) :
    server.Answered request trace response := by
  rcases server.handle_confined request with ⟨statusCode, error, hrefused⟩ | ⟨hhealth, heq⟩ |
    ⟨directory, hdirectory, hmem, hensures⟩
  · rw [hrefused] at hruns
    cases hruns
    exact .refused statusCode error rfl rfl
  · rw [heq] at hruns
    obtain ⟨hcalls, -⟩ := Ensures.of_leads hruns (fun _ _ => trivial) (@health_confined server [])
    refine .health hhealth fun exchange hexchange => ?_
    obtain ⟨before, after, hsplit⟩ := List.append_of_mem hexchange
    exact hcalls before exchange after hsplit
  · obtain ⟨hcalls, hdelivered⟩ := Ensures.of_leads hruns (fun _ _ => trivial) hensures
    exact .asset directory hdirectory hmem hcalls hdelivered

def liveServer : AssetServer where
  process := ⟨fun _ => [171], fun _ => [], 7, []⟩
  numbers := ⟨fun _ => none, fun q _ => q, id, fun _ => []⟩
  hlsDirectory := AbsolutePath.resolve [] "/hls".toList
  streams := .multi ["live".toList]
  masterPlaylistName := ⟨"live.m3u8".toList, by decide⟩
  running _ := true
  lastFailure := none
  partsPerSegment := 2

/-- A segment without a sidecar until one is renamed to it. -/
def unhashedSegment : (call : AssetCall) → Option (List UInt8) → call.Answer × Option (List UInt8)
  | .stat _, some line => (.ok ⟨true, line.length⟩, some line)
  | .readFile _, some line => (.ok line, some line)
  | .stat _, none | .access _, none => (.error .notFound, none)
  | .access _, some line => (.ok (), some line)
  | .readFile _, none => (.ok [71, 72], none)
  | .writeFile _ line, _ => (.ok (), some line)
  | .rename _ _, line => (.ok (), line)
  | .pendingHash _ _, line => (none, line)

/-- The hash of a segment is written for the first request. -/
theorem sidecarRequest_confined : ∃ trace,
    Answered liveServer ⟨"GET", some "/hls/live/..%2Flive/a.ts.sha256".toList⟩ trace
      (.file "text/plain; charset=utf-8" 17 .immutable
        ("ab  ../live/a.ts\n".toList.flatMap String.utf8EncodeChar)) := by
  obtain ⟨trace, hruns⟩ := exists_runs_exec unhashedSegment
    (liveServer.handle ⟨"GET", some "/hls/live/..%2Flive/a.ts.sha256".toList⟩) none
  have hresponse : ((liveServer.handle ⟨"GET", some "/hls/live/..%2Flive/a.ts.sha256".toList⟩).exec
      unhashedSegment none).1 = .file "text/plain; charset=utf-8" 17 .immutable
        ("ab  ../live/a.ts\n".toList.flatMap String.utf8EncodeChar) := by decide +kernel
  rw [hresponse] at hruns
  exact ⟨trace, requests_confined hruns⟩

end AssetServer

end OpenStreamGrid
