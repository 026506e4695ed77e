import OpenStreamGrid.Lib.Programs
import OpenStreamGrid.Origin.LowLatencyParts
import OpenStreamGrid.Origin.SidecarCoverage

/-!
# The files that the origin serves

The handler of a request looks for a file of a stream, answers with it, with a part
of a segment or with a playlist that lists parts, and writes the hash of a segment
when it is asked for. FFmpeg and other requests write and remove files meanwhile, so
a handler is a program whose calls may be answered in any way.
-/

namespace OpenStreamGrid

/-- What `stat` tells of an entry. -/
structure FileStats where
  isFile : Bool
  size : ℕ
deriving DecidableEq

/-- A call of the file system, or of the table of the hashes under way. -/
inductive AssetCall where
  | stat (path : AbsolutePath)
  | access (path : AbsolutePath)
  | readFile (path : AbsolutePath)
  | writeFile (path : AbsolutePath) (contents : List UInt8)
  | rename (path path' : AbsolutePath)
  /-- How the hash of this name ends that another request or the hash timer waits for. -/
  | pendingHash (directory : AbsolutePath) (segmentName : List Char)

@[reducible] def AssetCall.Answer : AssetCall → Type
  | .stat _ => Except FileError FileStats
  | .readFile _ => Except FileError (List UInt8)
  | .access _ | .writeFile _ _ | .rename _ _ => Except FileError Unit
  | .pendingHash _ _ => Option (Except FileError Unit)

abbrev AssetProgram (α : Type) : Type := Program AssetCall AssetCall.Answer α

/-- What `ensureHash` throws. -/
inductive HashError where
  | invalidName
  | file (error : FileError)

/-- A request; its target may be no URL. -/
structure AssetRequest where
  method : String
  pathname : Option (List Char)
deriving DecidableEq

inductive CacheControl where
  | noStore
  | immutable
deriving DecidableEq

structure OriginHealth where
  status : String
  ffmpegRunning : Bool
  playlistAvailable : Bool
  failureReason : Option String
  /-- How many streams there are and how many are ready. -/
  streams : Option (ℕ × ℕ)
deriving DecidableEq

inductive OriginResponse where
  | json (statusCode : ℕ) (error : String)
  | health (statusCode : ℕ) (details : OriginHealth)
  | file (contentType : String) (contentLength : ℕ) (cacheControl : CacheControl)
      (body : List UInt8)
  /-- The body fails after the headers. -/
  | destroyed
deriving DecidableEq

inductive StreamControllers where
  /-- One streamer that writes to the HLS directory itself. -/
  | single
  /-- One for each stream, in a directory of its own. -/
  | multi (streamIds : List (List Char))

/-- How the source reads, divides and writes durations. -/
structure PlaylistNumbers where
  /-- `Number(text)`, where it is finite -/
  number? : List Char → Option ℚ
  divide : ℚ → ℕ → ℚ
  triple : ℚ → ℚ
  /-- `toFixed(5)` -/
  toFixed : ℚ → List Char

/-- What `createOriginHandler` is called with, and what it takes from its process. -/
structure AssetServer where
  process : SidecarProcess
  numbers : PlaylistNumbers
  hlsDirectory : AbsolutePath
  streams : StreamControllers
  /-- The name of each stream's `playlistPath`, which its constructor checks. -/
  masterPlaylistName : FileName
  /-- `isRunning()` of a stream's controller -/
  running : List Char → Bool
  /-- `failureReason()` -/
  lastFailure : Option String
  partsPerSegment : ℕ

namespace Origin

/-! ## Playlists with parts -/

def SEGMENTS_WITH_PARTS : ℕ := 3

/-- The lines for the parts of a segment. -/
def partLines (numbers : PlaylistNumbers) (base : List Char) (duration : ℚ)
    (partsPerSegment : ℕ) : List (List Char) :=
  (List.range partsPerSegment).map fun part =>
    "#EXT-X-PART:DURATION=".toList ++ numbers.toFixed (numbers.divide duration partsPerSegment) ++
      ",URI=\"".toList ++ partName base part ++ "\"".toList ++
      (if part = 0 then ",INDEPENDENT=YES".toList else [])

/-- One round of the loop over the lines; the lines before `skip` belong to the newest segment. -/
def addPartLine (numbers : PlaylistNumbers) (lines : List (List Char)) (targetLine : List Char)
    (partTarget : ℚ) (withParts : List ℕ) (partsPerSegment : ℕ) (state : List (List Char) × ℕ)
    (entry : List Char × ℕ) : List (List Char) × ℕ :=
  let (output, skip) := state
  let (line, index) := entry
  if index < skip then state
  else
    let parts? := if index ∈ withParts then do
        let duration ← numbers.number?
          ((line.drop "#EXTINF:".toList.length).takeWhile fun c => c ≠ ',')
        let (uri, uriIndex) ← lines.zipIdx.find? fun candidate =>
          index < candidate.2 ∧ trim candidate.1 ≠ [] ∧ candidate.1.head? ≠ some '#'
        let base ← (trim uri).dropSuffix? ".ts".toList
        return (partLines numbers base duration partsPerSegment, uriIndex)
      else none
    let before := output ++ (parts?.map Prod.fst).getD []
    match parts? with
    | some (_, uriIndex) =>
        if withParts.getLast? = some index then (before, uriIndex + 1)
        else (before ++ [line], skip)
    | none =>
        if line = targetLine then
          (before ++ [line,
            "#EXT-X-PART-INF:PART-TARGET=".toList ++ numbers.toFixed partTarget,
            "#EXT-X-SERVER-CONTROL:PART-HOLD-BACK=".toList ++
              numbers.toFixed (numbers.triple partTarget)], skip)
        else (before ++ [line], skip)

def addPartsToPlaylist (numbers : PlaylistNumbers) (playlist : List Char) (partsPerSegment : ℕ) :
    List Char :=
  let lines := playlist.splitOn '\n'
  let isSegment line := "#EXTINF:".toList.isPrefixOf line
  if partsPerSegment = 0 ∨ ¬ lines.any isSegment then playlist
  else
    let targetLine := lines.find? fun line => "#EXT-X-TARGETDURATION:".toList.isPrefixOf line
    match targetLine, targetLine.bind fun line =>
        numbers.number? (line.drop "#EXT-X-TARGETDURATION:".toList.length) with
    | some targetLine, some targetDuration =>
        if targetDuration ≤ 0 then playlist
        else
          let indexes := (lines.zipIdx.filter fun entry => isSegment entry.1).map Prod.snd
          let withParts := indexes.drop (indexes.length - SEGMENTS_WITH_PARTS)
          let output := lines.zipIdx.foldl (addPartLine numbers lines targetLine
            (numbers.divide targetDuration partsPerSegment) withParts partsPerSegment) ([], 0)
          ['\n'].intercalate output.1
    | _, _ => playlist

/-! ## Names -/

def contentTypes : List (String × String) :=
  [(".m3u8", "application/vnd.apple.mpegurl"), (".ts", "video/mp2t"), (".m4s", "video/iso.segment"),
    (".mp4", "video/mp4"), (".sha256", "text/plain; charset=utf-8")]

/-- `path.extname` -/
def extname (path : List Char) : List Char :=
  let base := AbsolutePath.basename path
  let extension := base.rtakeWhile fun c => c ≠ '.'
  if '.' ∉ base ∨ base.length = extension.length + 1 ∨ base = ['.', '.'] then [] else '.' :: extension

/-- The path of a name in a directory, if it stays there. -/
def resolveHlsAssetPath (directory : AbsolutePath) (fileName : List Char) : Option AbsolutePath :=
  let assetPath := directory.resolve fileName
  if (directory.text ++ ['/']).isPrefixOf assetPath.text then some assetPath else none

structure ResolvedStreamAsset where
  assetDirectory : AbsolutePath
  assetName : List Char
deriving DecidableEq

end Origin

namespace AssetServer

open Origin

variable (server : AssetServer)

/-- The stream that the first name of a path stands for, else the only one. -/
def resolveStreamAsset (fileName : List Char) : Option ResolvedStreamAsset :=
  match server.streams with
  | .single => some ⟨server.hlsDirectory, fileName⟩
  | .multi streamIds =>
      let streamId := fileName.takeWhile fun c => c ≠ '/'
      let rest := fileName.dropWhile fun c => c ≠ '/'
      if streamId ≠ [] ∧ rest ≠ [] ∧ streamIds.any (· = streamId) then
        some ⟨server.hlsDirectory.resolve streamId, rest.tail⟩
      else
        match streamIds with
        | [streamId] => some ⟨server.hlsDirectory.resolve streamId, fileName⟩
        | _ => none

/-! ## Programs -/

def internalError : OriginResponse := .json 500 "Internal server error"

def fileExists (path : AbsolutePath) : AssetProgram (Except FileError Bool) :=
  .call (.stat path) fun
    | .ok stats => .done (.ok stats.isFile)
    | .error .notFound => .done (.ok false)
    | .error error => .done (.error error)

/-- The line of a sidecar. -/
def hashLine (segmentName : List Char) (contents : List UInt8) : List UInt8 :=
  (hexText (server.process.sha256 contents) ++ "  ".toList ++ segmentName ++ ['\n']).flatMap
    String.utf8EncodeChar

/-- The last three calls of `createHashFile`. -/
def writeHashFile (segmentName : List Char) (segmentPath : AbsolutePath) :
    AssetProgram (Except FileError AbsolutePath) :=
  let hashPath := segmentPath.extend sidecarSuffix
  let temporaryPath := segmentPath.extend (temporarySuffix server.process.pid)
  .call (.readFile segmentPath) fun
    | .error error => .done (.error error)
    | .ok contents =>
        .call (.writeFile temporaryPath (server.hashLine segmentName contents)) fun
          | .error error => .done (.error error)
          | .ok _ =>
              .call (.rename temporaryPath hashPath) fun
                | .error error => .done (.error error)
                | .ok _ => .done (.ok hashPath)

def createHashFile (segmentName : List Char) (segmentPath : AbsolutePath) :
    AssetProgram (Except FileError AbsolutePath) :=
  .call (.access (segmentPath.extend sidecarSuffix)) fun
    | .ok _ => .done (.ok (segmentPath.extend sidecarSuffix))
    | .error .notFound => server.writeHashFile segmentName segmentPath
    | .error error => .done (.error error)

/-- Requests for the same hash wait for one another. -/
def ensureHash (directory : AbsolutePath) (segmentName : List Char) :
    AssetProgram (Except HashError AbsolutePath) :=
  if isMediaSegmentPath (String.ofList segmentName) then
    match resolveHlsAssetPath directory segmentName with
    | none => .done (.error .invalidName)
    | some segmentPath =>
        .call (.pendingHash directory segmentName) fun
          | some (.ok _) => .done (.ok (segmentPath.extend sidecarSuffix))
          | some (.error error) => .done (.error (.file error))
          | none => (server.createHashFile segmentName segmentPath).bind fun created =>
              .done (created.mapError .file)
  else .done (.error .invalidName)

/-- The end of the handler: the whole file. -/
def sendFile (method contentType : String) (cacheControl : CacheControl) (filePath : AbsolutePath) :
    AssetProgram OriginResponse :=
  .call (.stat filePath) fun
    | .error .notFound => .done (.json 404 "File not found")
    | .error _ => .done internalError
    | .ok stats =>
        if stats.isFile then
          if method = "HEAD" then .done (.file contentType stats.size cacheControl [])
          else
            .call (.readFile filePath) fun
              | .ok contents => .done (.file contentType stats.size cacheControl contents)
              | .error _ => .done .destroyed
        else .done (.json 404 "File not found")

def sendPart (method contentType : String) (segmentPath : AbsolutePath) (index : ℕ) :
    AssetProgram OriginResponse :=
  .call (.stat segmentPath) fun
    | .error .notFound => .done (.json 404 "File not found")
    | .error _ => .done internalError
    | .ok stats =>
        let range := partRange stats.size index server.partsPerSegment
        if method = "HEAD" ∨ range.stop ≤ range.start then
          .done (.file contentType (range.stop - range.start) .immutable [])
        else
          .call (.readFile segmentPath) fun
            | .ok contents => .done (.file contentType (range.stop - range.start) .immutable
                ((contents.drop range.start).take (range.stop - range.start)))
            | .error _ => .done .destroyed

/-- A playlist as the text that is sent. -/
def playlistBody (contents : List UInt8) : List UInt8 :=
  (addPartsToPlaylist server.numbers (server.process.utf8 contents)
    server.partsPerSegment).flatMap String.utf8EncodeChar

def sendPlaylist (method contentType : String) (filePath : AbsolutePath) :
    AssetProgram OriginResponse :=
  .call (.readFile filePath) fun
    | .error _ => .done internalError
    | .ok contents =>
        .done (.file contentType (server.playlistBody contents).length .noStore
          (if method = "HEAD" then [] else server.playlistBody contents))

/-- The sidecar is written unless it is there. -/
def sendSidecar (method contentType : String) (asset : ResolvedStreamAsset)
    (filePath : AbsolutePath) : AssetProgram OriginResponse :=
  (fileExists filePath).bind fun
    | .error _ => .done internalError
    | .ok true => sendFile method contentType .immutable filePath
    | .ok false =>
        let segmentName := asset.assetName.take
          (asset.assetName.length - ".sha256".toList.length)
        if isMediaSegmentPath (String.ofList segmentName) then
          (server.ensureHash asset.assetDirectory segmentName).bind fun
            | .ok hashPath => sendFile method contentType .immutable hashPath
            | .error (.file .notFound) => sendFile method contentType .immutable filePath
            | .error _ => .done internalError
        else .done (.json 404 "File not found")

/-- A segment, or the part of one that no file has the name of. -/
def sendSegment (method contentType : String) (asset : ResolvedStreamAsset)
    (filePath : AbsolutePath) : AssetProgram OriginResponse :=
  (fileExists filePath).bind fun
    | .error _ => .done internalError
    | .ok true => sendFile method contentType .immutable filePath
    | .ok false =>
        match parsePartName asset.assetName with
        | none => sendFile method contentType .immutable filePath
        | some part =>
            if part.index < server.partsPerSegment then
              match resolveHlsAssetPath asset.assetDirectory part.segmentName with
              | none => .done internalError
              | some segmentPath => server.sendPart method contentType segmentPath part.index
            else sendFile method contentType .immutable filePath

/-- What follows once the path of the asset is known. -/
def sendAsset (method : String) (extension : List Char) (contentType : String)
    (asset : ResolvedStreamAsset) (filePath : AbsolutePath) : AssetProgram OriginResponse :=
  if extension = ".ts".toList ∧ 0 < server.partsPerSegment then
    server.sendSegment method contentType asset filePath
  else if extension = ".m3u8".toList then
    if 0 < server.partsPerSegment then
      (fileExists filePath).bind fun
        | .error _ => .done internalError
        | .ok true => server.sendPlaylist method contentType filePath
        | .ok false => sendFile method contentType .noStore filePath
    else sendFile method contentType .noStore filePath
  else if extension = ".sha256".toList then server.sendSidecar method contentType asset filePath
  else sendFile method contentType .immutable filePath

/-- The file name of a request for an asset. -/
def serveAsset (method : String) (fileName : List Char) : AssetProgram OriginResponse :=
  if fileName = [] ∨ ¬ fileName.all isSafePathCharacter then
    .done (.json 400 "Invalid file path")
  else
    match contentTypes.lookup (String.ofList (extname fileName)) with
    | none => .done (.json 404 "File not found")
    | some contentType =>
        match server.resolveStreamAsset fileName with
        | none => .done (.json 404 "Stream not found")
        | some asset =>
            match resolveHlsAssetPath asset.assetDirectory asset.assetName with
            | none => .done (.json 400 "Invalid file path")
            | some filePath =>
                server.sendAsset method (extname fileName) contentType asset filePath

/-! ## The health route -/

def directoryOf (streamId : List Char) : AbsolutePath := server.hlsDirectory.resolve streamId

def playlistPath (directory : AbsolutePath) : AbsolutePath :=
  directory ++ [server.masterPlaylistName]

/-- The streams are looked at side by side, each to its end. -/
def playlistsAvailable : List AbsolutePath → AssetProgram (List (Except FileError Bool))
  | [] => .done []
  | path :: paths =>
      (fileExists path).bind fun available =>
        (playlistsAvailable paths).bind fun others => .done (available :: others)

def directories : List AbsolutePath :=
  match server.streams with
  | .single => [server.hlsDirectory]
  | .multi streamIds => streamIds.map server.directoryOf

def healthOf (available : List Bool) : OriginHealth :=
  let streams := match server.streams with
    | .single => none
    | .multi streamIds => some (streamIds.length,
        ((streamIds.zip available).filter fun stream => server.running stream.1 && stream.2).length)
  let running := match server.streams with
    | .single => server.running []
    | .multi streamIds => streamIds.all server.running
  let playlistAvailable := available.all id
  -- An empty reason counts as none.
  let failureReason := server.lastFailure.filter (· ≠ "")
  { status := if running && playlistAvailable then "ok"
      else if failureReason.isSome then "error" else "starting"
    ffmpegRunning := running
    playlistAvailable
    failureReason
    streams }

def health : AssetProgram OriginResponse :=
  (playlistsAvailable (server.directories.map server.playlistPath)).bind fun answers =>
    match answers.mapM id with
    | .error _ => .done internalError
    | .ok available =>
        let details := server.healthOf available
        .done (.health (if details.status = "ok" then 200 else 503) details)

/-! ## The handler -/

def isHealth (request : AssetRequest) : Prop :=
  request.method = "GET" ∧ request.pathname = some "/health".toList

instance (request : AssetRequest) : Decidable (isHealth request) :=
  inferInstanceAs (Decidable (request.method = "GET" ∧ request.pathname = some "/health".toList))

/-- The file name that a request asks for. -/
def assetPath? (request : AssetRequest) : Option (List Char) :=
  request.pathname.bind fun pathname => pathname.dropPrefix? "/hls/".toList

/-- `createOriginHandler` -/
def handle (request : AssetRequest) : AssetProgram OriginResponse :=
  if request.pathname = none then .done internalError
  else if isHealth request then server.health
  else
    match assetPath? request with
    | none => .done (.json 404 "Route not found")
    | some path =>
        if request.method = "GET" ∨ request.method = "HEAD" then
          match decodeURIComponent (String.ofList path) with
          | none => .done (.json 400 "Invalid file path")
          | some fileName => server.serveAsset request.method fileName.toList
        else .done (.json 404 "Route not found")

end AssetServer

end OpenStreamGrid
