import OpenStreamGrid.Common.PeerAddress
import OpenStreamGrid.Common.SegmentIds
import OpenStreamGrid.Lib.TimedSystem
import OpenStreamGrid.Peer.CacheLeases
import OpenStreamGrid.Peer.UploadPacing

/-!
# The upload server

A Node peer serves its cached segments over HTTP. An upload leases its segment,
takes one of a few slots, and writes chunk after chunk as the token bucket grants
them, while the rest of the peer goes on using the cache. A client that reads
nothing for a while is dropped.
-/

namespace OpenStreamGrid

structure UploadServerOptions where
  cache : CacheOptions
  speed : UploadSpeed
  maxConnections : {n : ℕ // 0 < n}
  /-- An empty token asks for none. -/
  authorizationToken : Option String
  stallTimeoutMs : {ms : ℚ≥0 // 0 < ms}

/-- A request as the server reads it, with no path where the URL cannot be parsed. -/
structure UploadRequest where
  method : String
  pathname : Option String
  authorization : Option String
  ready : Bool
  /-- `Date.now()` for the cache. -/
  now : ℚ

/-- What a request is answered that starts no upload. -/
inductive UploadAnswer where
  | preflight
  | health (ready : Bool) (cachedSegments : ℕ) (cacheBytes : ℤ) (activeUploads : ℤ)
  | refused (statusCode : ℕ) (error : String) (retryAfter : Option ℕ)
deriving DecidableEq

inductive UploadPhase where
  /-- Waits in `consume`; the timer of the wait loop may be late. -/
  | consuming (due : ℚ≥0)
  /-- The next chunk is granted, and the handler goes on before time passes. -/
  | granted (since : ℚ≥0)
  /-- Waits for the client to read. -/
  | draining (due : ℚ≥0)
  | finished
deriving DecidableEq

/-- An upload with its response. -/
structure PeerUpload where
  segmentName : String
  head : Bool
  lease : LeaseId
  /-- What the lease gave access to when it was granted. -/
  data : List UInt8
  contentType : String
  contentLength : ℕ
  offset : ℕ
  phase : UploadPhase
  /-- What was written so far, as it was in the buffer then. -/
  body : List UInt8
  destroyed : Bool
  ended : Bool
deriving DecidableEq

structure UploadServer (o : UploadServerOptions) where
  cache : SegmentCache
  bucket : BandwidthLimiter o.speed
  activeConnections : ℤ
  /-- Every upload there was. -/
  uploads : List PeerUpload
  answers : List UploadAnswer
  /-- What the statistics count as uploaded. -/
  uploadedBytes : ℕ
  /-- What the cache has accepted of what the peer wanted to store. -/
  stores : List (String × List UInt8)
  /-- The chunks granted and the chunks written, by time and length. -/
  granted : List (ℚ≥0 × ℕ)
  written : List (ℚ≥0 × ℕ)

inductive UploadServerEvent where
  /-- The rest of the peer uses the cache. -/
  | cache (event : SegmentCache.CacheEvent)
  | request (r : UploadRequest)
  | wake (upload : ℕ)
  | resume (upload : ℕ) (canContinue : Bool)
  /-- The `drain` or the `close` of a response that is waited for. -/
  | drained (upload : ℕ)
  | stalled (upload : ℕ)
  | destroyed (upload : ℕ)

/-- The client has neither everything nor nothing to wait for. -/
def PeerUpload.unfinished (u : PeerUpload) : Bool := u.phase ≠ .finished

def isMediaSegmentFileName (value : String) : Bool :=
  value ≠ "" && value.toList.all (fun c => isSafePathCharacter c && c ≠ '/') &&
    (mediaSegmentExtension? value).isSome

/-- `/^\/segments\/([^/]+)$/` -/
def segmentPath? (pathname : String) : Option String :=
  if "/segments/".toList <+: pathname.toList then
    let name := pathname.toList.drop "/segments/".toList.length
    if name = [] ∨ '/' ∈ name then none else some (String.ofList name)
  else none

namespace UploadServer

variable {o : UploadServerOptions}

def new (o : UploadServerOptions) : UploadServer o where
  cache := .new
  bucket := .new o.speed 0
  activeConnections := 0
  uploads := []
  answers := []
  uploadedBytes := 0
  stores := []
  granted := []
  written := []

section Operations

variable (now : ℚ≥0) (s : UploadServer o) (i : ℕ) (u : PeerUpload)

def setUpload : UploadServer o := { s with uploads := s.uploads.set i u }

/-- The part of the data the loop is at, as it is in the buffer now. -/
def chunk : List UInt8 :=
  ((s.cache.leasedBytes u.lease).drop u.offset).take (BandwidthLimiter.maximumChunkBytes o.speed)

/-- The response ends, or has been destroyed before, and the slot is free. -/
def finish : UploadServer o :=
  { s with
    cache := s.cache.release o.cache u.lease
    activeConnections := s.activeConnections - 1 }.setUpload i
      { u with phase := .finished, ended := true }

/-- One turn of the wait loop of the bucket. -/
def consume : UploadServer o :=
  let bytes := (s.chunk u).length
  let bucket := s.bucket.refill now
  if h : (bytes : ℚ) ≤ bucket.tokens then
    { s with
      bucket := bucket.spend bytes h
      granted := s.granted ++ [(now, bytes)] }.setUpload i { u with phase := .granted now }
  else
    { s with bucket }.setUpload i
      { u with phase := .consuming (now + (bucket.waitMs bytes).toNNRat) }

/-- The head of the loop of `writeLimited`. -/
def writeLimited : UploadServer o :=
  if u.offset < (s.cache.leasedBytes u.lease).length ∧ u.destroyed = false then s.consume now i u
  else s.finish i u

/-- After the chunk was granted. -/
def writeChunk (canContinue : Bool) : UploadServer o :=
  if u.destroyed then s.finish i u
  else
    let chunk := s.chunk u
    let s := { s with
      uploadedBytes := s.uploadedBytes + chunk.length
      written := s.written ++ [(now, chunk.length)] }
    let u := { u with body := u.body ++ chunk }
    if canContinue then
      s.writeLimited now i
        { u with offset := u.offset + BandwidthLimiter.maximumChunkBytes o.speed }
    else s.setUpload i { u with phase := .draining (now + o.stallTimeoutMs) }

/-- After the wait for the client. -/
def nextChunk : UploadServer o :=
  s.writeLimited now i { u with offset := u.offset + BandwidthLimiter.maximumChunkBytes o.speed }

def answer (answer : UploadAnswer) : UploadServer o := { s with answers := s.answers ++ [answer] }

def refuse (statusCode : ℕ) (error : String) (retryAfter : Option ℕ) : UploadServer o :=
  s.answer (.refused statusCode error retryAfter)

/-- A segment that may be served. -/
def serve (head : Bool) (segmentName : String) (date : ℚ) : UploadServer o :=
  let leased := s.cache.lease o.cache segmentName date
  let s := { s with cache := leased.1 }
  match leased.2 with
  | none => s.refuse 404 "Segment not found" none
  | some lease =>
      let data := s.cache.leasedBytes lease
      let u : PeerUpload := {
        segmentName, head, lease, data
        contentType :=
          if ".m4s".toList <:+ segmentName.toList then "video/iso.segment" else "video/mp2t"
        contentLength := data.length
        offset := 0
        phase := .consuming now
        body := []
        destroyed := false
        ended := false }
      let i := s.uploads.length
      let s := { s with
        activeConnections := s.activeConnections + 1
        uploads := s.uploads ++ [u] }
      if head then s.finish i u else s.writeLimited now i u

def isAuthorized (o : UploadServerOptions) (r : UploadRequest) : Bool :=
  match o.authorizationToken with
  | none => true
  | some token => token = "" || r.authorization = some ("Bearer " ++ token)

def health (r : UploadRequest) : UploadServer o :=
  let sized := s.cache.evictExpired o.cache fun _ => r.now
  let counted := sized.evictExpired o.cache fun _ => r.now
  { s with cache := counted }.answer
    (.health r.ready sized.entries.size counted.totalBytes s.activeConnections)

def handle (r : UploadRequest) : UploadServer o :=
  match r.pathname with
  | none => s.refuse 500 "Internal server error" none
  | some pathname =>
      if r.method = "OPTIONS" ∧ "/segments/".toList <+: pathname.toList then s.answer .preflight
      else if r.method = "GET" ∧ pathname = "/health" then s.health r
      else
        match segmentPath? pathname with
        | none => s.refuse 404 "Route not found" none
        | some encoded =>
            if r.method ≠ "GET" ∧ r.method ≠ "HEAD" then s.refuse 404 "Route not found" none
            else if isAuthorized o r = false then s.refuse 401 "Invalid peer upload token" none
            else if (o.maxConnections : ℤ) ≤ s.activeConnections then
              s.refuse 429 "Upload connection limit exceeded" (some 1)
            else
              match decodeURIComponent encoded with
              | none => s.refuse 400 "Invalid segment name" none
              | some segmentName =>
                  if isMediaSegmentFileName segmentName then
                    s.serve now (r.method = "HEAD") segmentName r.now
                  else s.refuse 400 "Invalid segment name" none

/-- The handler goes on with an upload that waits for what has happened. -/
def continueAt (f : PeerUpload → Option (UploadServer o)) : Option (UploadServer o) :=
  s.uploads[i]?.bind f

/-- A lease is released by nobody but the upload that holds it. -/
def useCache (event : SegmentCache.CacheEvent) : Option (UploadServer o) :=
  match event with
  | .release handle =>
      if handle ∈ s.uploads.map PeerUpload.lease then none
      else some { s with cache := s.cache.step o.cache event }
  | .set segmentName data date uninitialised =>
      let stored := s.cache.set o.cache segmentName data date uninitialised
      some { s with
        cache := stored.1
        stores := if stored.2 then s.stores ++ [(segmentName, data)] else s.stores }
  | _ => some { s with cache := s.cache.step o.cache event }

def timers : List ℚ≥0 :=
  s.uploads.filterMap fun u =>
    match u.phase with
    | .granted since => some since
    | .draining due => some due
    | _ => none

def step : UploadServerEvent → Option (UploadServer o)
  | .cache event => s.useCache event
  | .request r => some (s.handle now r)
  | .wake i => s.continueAt i fun u =>
      match u.phase with
      | .consuming due => if due ≤ now then some (s.consume now i u) else none
      | _ => none
  | .resume i canContinue => s.continueAt i fun u =>
      match u.phase with
      | .granted _ => some (s.writeChunk now i u canContinue)
      | _ => none
  | .drained i => s.continueAt i fun u =>
      match u.phase with
      | .draining _ => some (s.nextChunk now i u)
      | _ => none
  | .stalled i => s.continueAt i fun u =>
      match u.phase with
      | .draining due =>
          if due = now then some (s.nextChunk now i { u with destroyed := true }) else none
      | _ => none
  | .destroyed i => s.continueAt i fun u =>
      if u.unfinished then some (s.setUpload i { u with destroyed := true }) else none

end Operations

def system (o : UploadServerOptions) : TimedSystem (UploadServer o) UploadServerEvent where
  init s := s = new o
  timers := timers
  event now s e := s.step now e

end UploadServer

end OpenStreamGrid
