import OpenStreamGrid.Tracker.RestRequests

/-!
# The REST routes

`createTrackerHandler` over any tracker store. What a request carries is fixed
when it arrives, its token is verified then, and everything after its body is
read happens in one go: the answer, the next store, the session it is granted
and the events it emits are one outcome. An error answers with the store as it
is at that point.
-/

namespace OpenStreamGrid

/-- Which route a method and a path select; the components are still encoded. -/
inductive Route where
  | preflight
  | health
  | metrics
  | dashboard
  | globalStats
  | statsEvents
  | registerBroadcast
  | listBroadcasts
  | broadcastStats (broadcastId : String)
  | reportSegments (broadcastId peerId : String)
  | heartbeat (broadcastId peerId : String)
  | reportStats (broadcastId peerId : String)
  | reportFailure (broadcastId peerId : String)
  /-- A peer action with another method: its body is read before it is not found. -/
  | otherAction (broadcastId peerId : String)
  | joinPeer (broadcastId : String)
  | listPeers (broadcastId : String)
  | leavePeer (broadcastId peerId : String)
  | getBroadcast (broadcastId : String)
  | unregisterBroadcast (broadcastId : String)
  /-- A broadcast's or a peer's path with another method. -/
  | otherResource (broadcastId : String)
  | notFound
deriving DecidableEq

/-- The path's components; the patterns ask for non-empty ones where they capture. -/
def selectRoute (method : String) (path : List String) : Route :=
  if path.take 2 = ["", "api"] ∧ 2 < path.length ∧ method = "OPTIONS" then .preflight
  else
    match path with
    | ["", "health"] => if method = "GET" then .health else .notFound
    | ["", "metrics"] => if method = "GET" then .metrics else .notFound
    | ["", "dashboard"] => if method = "GET" then .dashboard else .notFound
    | ["", "api", "v1", "stats"] => if method = "GET" then .globalStats else .notFound
    | ["", "api", "v1", "stats", "events"] => if method = "GET" then .statsEvents else .notFound
    | ["", "api", "v1", "broadcasts"] =>
        if method = "POST" then .registerBroadcast
        else if method = "GET" then .listBroadcasts
        else .notFound
    | ["", "api", "v1", "broadcasts", b] =>
        if b = "" then .notFound
        else if method = "GET" then .getBroadcast b
        else if method = "DELETE" then .unregisterBroadcast b
        else .otherResource b
    | ["", "api", "v1", "broadcasts", b, resource] =>
        if b = "" then .notFound
        else if resource = "stats" then
          if method = "GET" then .broadcastStats b else .notFound
        else if resource = "peers" then
          if method = "POST" then .joinPeer b
          else if method = "GET" then .listPeers b
          else .otherResource b
        else .notFound
    | ["", "api", "v1", "broadcasts", b, "peers", p] =>
        if b = "" ∨ p = "" then .notFound
        else if method = "DELETE" then .leavePeer b p
        else .otherResource b
    | ["", "api", "v1", "broadcasts", b, "peers", p, action] =>
        if b = "" ∨ p = "" ∨ action ∉ ["segments", "heartbeat", "stats", "reports"] then .notFound
        else if action = "segments" ∧ method = "POST" then .reportSegments b p
        else if action = "heartbeat" ∧ method = "PUT" then .heartbeat b p
        else if action = "stats" ∧ method = "POST" then .reportStats b p
        else if action = "reports" ∧ method = "POST" then .reportFailure b p
        else .otherAction b p
    | _ => .notFound

/-- What a request carries, and what the limiters and the hub say of it. -/
structure RestRequest where
  method : String
  pathname : String
  /-- The query's `segment`. -/
  segment : Option SegmentId
  /-- The `x-api-key` header, where it is a string. -/
  providedApiKey : Option String
  authorization : Option String
  body : RequestBody
  /-- When the token is verified, and when the body has been read. -/
  verifiedAt : Timestamp
  handledAt : Timestamp
  /-- What the address's rate limiter says of a changing request. -/
  retryAfter : Option String
  /-- What the inventory limiter says of a report. -/
  inventoryAdmits : Bool
  /-- The neighbors a peer sees over WebSocket. -/
  peerView : BroadcastId → PeerId → Option (List PeerId)

def RestRequest.route (r : RestRequest) : Route := selectRoute r.method (splitText '/' r.pathname)

/-- The REST interface's options. -/
structure RestApi where
  apiKey : Option String
  peerSessions : PeerSessionTokenService
  maxPeersPerBroadcast : ℕ
  /-- Whether the stats event stream is available. -/
  statsEvents : Bool
  parseUrl : String → Option AddressUrl

inductive RestEvent where
  | broadcastListChanged
  | broadcastRemoved (broadcastId : BroadcastId)
  | peerJoined (broadcastId : BroadcastId) (peer : Peer)
  | peerLeft (broadcastId : BroadcastId) (peerId : PeerId)
  | segmentsAvailable (broadcastId : BroadcastId) (peerId : PeerId) (segments : List SegmentId)
  | statsUpdated (broadcastId : BroadcastId) (peerId : PeerId)
  | peerListChanged (broadcastId : BroadcastId)
deriving DecidableEq

/-- The broadcast an event is about. -/
def RestEvent.broadcastId? : RestEvent → Option BroadcastId
  | .broadcastListChanged => none
  | .broadcastRemoved b => some b
  | .peerJoined b _ => some b
  | .peerLeft b _ => some b
  | .segmentsAvailable b _ _ => some b
  | .statsUpdated b _ => some b
  | .peerListChanged b => some b

/-- A response's status and body. -/
inductive RestAnswer where
  | noContent
  | healthy
  | metricsPage
  | dashboardPage
  | statsStream
  | globalTotals (broadcasts : ℕ) (totals : TrafficTotals)
  | registered (statusCode : ℕ) (broadcast : Broadcast)
  | broadcasts (broadcasts : List Broadcast)
  | totals (totals : TrafficTotals)
  | peer (peer : Peer)
  | joined (statusCode : ℕ) (peer : Peer) (sessionToken : String) (expiresAt : Timestamp)
  | peers (peers : List Peer)
  | broadcast (broadcast : Broadcast) (peers : List Peer)
  | error (error : RequestError)
deriving DecidableEq

/-- What a request leads to. -/
structure RestOutcome (σ : Type) where
  store : σ
  answer : RestAnswer
  granted : Option PeerSessionPayload := none
  events : List RestEvent := []

namespace RestApi

/-- Who a request says it is. -/
structure Credentials where
  hasAdminAccess : Bool
  session : Option PeerSessionPayload
  /-- Neither a key nor a token was sent. -/
  absent : Bool

def credentials (api : RestApi) (r : RestRequest) : Credentials :=
  let providedBearer := bearerToken r.authorization
  { hasAdminAccess := api.apiKey.isNone || (r.providedApiKey.isSome && r.providedApiKey = api.apiKey)
      || (providedBearer.isSome && providedBearer = api.apiKey)
    session := api.peerSessions.verify r.verifiedAt providedBearer
    absent := r.providedApiKey.isNone && providedBearer.isNone }

def missingApiKey : RequestError := { message := "Missing API key", statusCode := 401 }

def invalidApiKey : RequestError := { message := "Invalid API key", statusCode := 401 }

def requireAdminAccess (c : Credentials) : Except RequestError Unit :=
  if c.hasAdminAccess then .ok ()
  else .error (if c.absent then missingApiKey else invalidApiKey)

def missingPeerSession : RequestError :=
  { message := "Missing or invalid peer session", statusCode := 401 }

/-- The peer the caller may act as. -/
def requirePeerSession (c : Credentials) (broadcastId : BroadcastId) (peerId : Option PeerId) :
    Except RequestError PeerId :=
  if c.hasAdminAccess then .ok (peerId.getD "admin")
  else
    match c.session with
    | none => .error missingPeerSession
    | some session =>
        if session.broadcastId ≠ broadcastId ∨ peerId.any (fun id => session.peerId ≠ id) then
          .error missingPeerSession
        else .ok session.peerId

section Handler

variable {σ : Type} (T : TrackerStoreBackend σ) (api : RestApi) (s : σ) (r : RestRequest)
  (c : Credentials)

def fail (e : RequestError) : RestOutcome σ := { store := s, answer := .error e }

def failStore (e : StoreError) : RestOutcome σ :=
  fail s { message := e.message, statusCode := e.statusCode }

/-- The rest of a route, unless a check throws. -/
def guarded {α : Type} (check : Except RequestError α) (next : α → RestOutcome σ) : RestOutcome σ :=
  match check with
  | .error e => fail s e
  | .ok a => next a

/-- The rest of a route, unless the store throws. -/
def stored {α : Type} (result : Except StoreError (σ × α)) (next : σ → α → RestOutcome σ) :
    RestOutcome σ :=
  match result with
  | .error e => failStore s e
  | .ok (s', a) => next s' a

/-- The peers a caller sees: all of them, or itself and its neighbors. -/
def visiblePeers (b : BroadcastId) (peerId : PeerId) (segment : Option SegmentId) :
    Except StoreError (List Peer) :=
  let view := if c.hasAdminAccess then none else r.peerView b peerId
  match view with
  | none | some [] => T.listPeers s b segment
  | some view =>
      .ok ((peerId :: view).filterMap fun id =>
        (T.getPeer s b id).filter fun peer =>
          match segment with
          | none => true
          | some name => decide (name ∈ peer.segments))

/-! ## Peer actions -/

def reportSegments (b : BroadcastId) (p : PeerId) (body : JsonObject) : RestOutcome σ :=
  guarded s (requirePeerSession c b (some p)) fun _ =>
  guarded s (optionalBoolean body "replace") fun replace =>
  match segmentIdListOf (body.get "segments") with
  | none =>
      fail s
        { message := "'segments' must be an array of at most " ++ toString MAX_SEGMENTS_PER_REPORT ++
            " non-empty strings of up to " ++ toString MAX_SEGMENT_ID_LENGTH ++ " characters" }
  | some segments =>
      if ¬ r.inventoryAdmits then
        fail s { message := "Segment report rate limit exceeded", statusCode := 429 }
      else
        stored s (T.reportSegments s r.handledAt b p segments (replace.getD false)) fun s' peer =>
          { store := s', answer := .peer peer, events := [.segmentsAvailable b p segments] }

def heartbeat (b : BroadcastId) (p : PeerId) (body : JsonObject) : RestOutcome σ :=
  guarded s (requirePeerSession c b (some p)) fun _ =>
  guarded s (readHeartbeat body) fun heartbeat =>
  stored s (T.heartbeat s r.handledAt b p heartbeat) fun s' peer =>
    { store := s', answer := .peer peer, events := [.peerListChanged b] }

def reportStats (b : BroadcastId) (p : PeerId) (body : JsonObject) : RestOutcome σ :=
  guarded s (requirePeerSession c b (some p)) fun _ =>
  guarded s (readStats body) fun stats =>
  stored s ((T.reportStats s r.handledAt b p stats).map (·, ())) fun s' _ =>
    { store := s', answer := .noContent, events := [.statsUpdated b p] }

def reportFailure (b : BroadcastId) (p : PeerId) (body : JsonObject) : RestOutcome σ :=
  guarded s (readFailureReport body) fun report =>
  guarded s (requirePeerSession c b (some report.reporterId)) fun _ =>
  stored s (T.reportPeerFailure s r.handledAt b p report) fun s' peer =>
    { store := s', answer := .peer peer, events := [.peerListChanged b] }

/-! ## Peers and broadcasts -/

/-- What follows the checks of a join: the store decides whether the peer was present. -/
def joinChecked (b : BroadcastId) (join : PeerJoinRequest) : RestOutcome σ :=
  match T.joinPeerDetailed s r.handledAt b join ⟨some api.maxPeersPerBroadcast⟩ with
  | .error e =>
      fail s
        { message := e.message
          statusCode := e.statusCode
          retryAfter := if e.statusCode = 429 then some "1" else none }
  | .ok (s', peer, alreadyJoined) =>
      guarded s' (if alreadyJoined then requirePeerSession c b (some join.id) else .ok join.id)
        fun _ =>
      let issued := api.peerSessions.issue r.handledAt b join.id
      { store := s'
        answer := .joined (if alreadyJoined then 200 else 201) peer issued.2 issued.1.expiresAt
        granted := some issued.1
        events := [if alreadyJoined then .peerListChanged b else .peerJoined b peer] }

def joinPeer (b : BroadcastId) : RestOutcome σ :=
  guarded s (readJson r.body) fun body =>
  guarded s (readJoin api.parseUrl body) fun join =>
  -- The peek that authorizes a re-join before the store is asked.
  guarded s
    (if (T.getPeer s b join.id).isSome then requirePeerSession c b (some join.id)
      else .ok join.id)
    fun _ => joinChecked T api s r c b join

def listPeers (b : BroadcastId) : RestOutcome σ :=
  guarded s (requirePeerSession c b none) fun peerId =>
  match visiblePeers T s r c b peerId r.segment with
  | .error e => failStore s e
  | .ok peers => { store := s, answer := .peers peers }

def leavePeer (b : BroadcastId) (p : PeerId) : RestOutcome σ :=
  guarded s (requirePeerSession c b (some p)) fun _ =>
  stored s ((T.leavePeer s b p).map (·, ())) fun s' _ =>
    { store := s', answer := .noContent, events := [.peerLeft b p] }

def getBroadcast (b : BroadcastId) : RestOutcome σ :=
  guarded s (requirePeerSession c b none) fun peerId =>
  match T.getBroadcast s b with
  | .error e => failStore s e
  | .ok broadcast =>
      match visiblePeers T s r c b peerId none with
      | .error e => failStore s e
      | .ok peers => { store := s, answer := .broadcast broadcast peers }

/-! ## Administration -/

def registerBroadcast : RestOutcome σ :=
  guarded s (requireAdminAccess c) fun _ =>
  guarded s (readJson r.body) fun body =>
  guarded s (readRegistration body) fun registration =>
  let result := T.registerBroadcast s r.handledAt registration
  { store := result.1
    answer := .registered (if result.2.2 then 201 else 200) result.2.1
    events := [.broadcastListChanged] }

def unregisterBroadcast (b : BroadcastId) : RestOutcome σ :=
  guarded s (requireAdminAccess c) fun _ =>
  stored s ((T.unregisterBroadcast s b).map (·, ())) fun s' _ =>
    { store := s', answer := .noContent, events := [.broadcastRemoved b, .broadcastListChanged] }

def routeNotFound : RestOutcome σ :=
  fail s { message := "Route not found", statusCode := 404 }

/-- A peer action: its path is decoded and its body read before anything is checked. -/
def peerAction (broadcastId peerId : String)
    (action : BroadcastId → PeerId → JsonObject → RestOutcome σ) : RestOutcome σ :=
  guarded s (decodedPathComponent broadcastId) fun b =>
  guarded s (decodedPathComponent peerId) fun p =>
  guarded s (readJson r.body) fun body => action b p body

/-- The routes, once the rate limiter has let the request pass. -/
def dispatch : Route → RestOutcome σ
  | .preflight => { store := s, answer := .noContent }
  | .health => { store := s, answer := .healthy }
  | .metrics => guarded s (requireAdminAccess c) fun _ => { store := s, answer := .metricsPage }
  | .dashboard =>
      guarded s (requireAdminAccess c) fun _ => { store := s, answer := .dashboardPage }
  | .globalStats => guarded s (requireAdminAccess c) fun _ =>
      { store := s, answer := .globalTotals (T.getGlobalStats s).1 (T.getGlobalStats s).2 }
  | .statsEvents => guarded s (requireAdminAccess c) fun _ =>
      if api.statsEvents then { store := s, answer := .statsStream }
      else fail s { message := "Stats event stream is unavailable", statusCode := 503 }
  | .registerBroadcast => registerBroadcast T s r c
  | .listBroadcasts => guarded s (requireAdminAccess c) fun _ =>
      { store := s, answer := .broadcasts (T.listBroadcasts s) }
  | .broadcastStats broadcastId => guarded s (requireAdminAccess c) fun _ =>
      guarded s (decodedPathComponent broadcastId) fun b =>
      match T.getBroadcastStats s b with
      | .error e => failStore s e
      | .ok totals => { store := s, answer := .totals totals }
  | .reportSegments broadcastId peerId =>
      peerAction s r broadcastId peerId (reportSegments T s r c)
  | .heartbeat broadcastId peerId => peerAction s r broadcastId peerId (heartbeat T s r c)
  | .reportStats broadcastId peerId => peerAction s r broadcastId peerId (reportStats T s r c)
  | .reportFailure broadcastId peerId => peerAction s r broadcastId peerId (reportFailure T s r c)
  | .otherAction broadcastId peerId =>
      peerAction s r broadcastId peerId fun _ _ _ => routeNotFound s
  | .joinPeer broadcastId =>
      guarded s (decodedPathComponent broadcastId) fun b => joinPeer T api s r c b
  | .listPeers broadcastId =>
      guarded s (decodedPathComponent broadcastId) fun b => listPeers T s r c b
  | .leavePeer broadcastId peerId =>
      guarded s (decodedPathComponent broadcastId) fun b =>
      guarded s (decodedPathComponent peerId) fun p => leavePeer T s c b p
  | .getBroadcast broadcastId =>
      guarded s (decodedPathComponent broadcastId) fun b => getBroadcast T s r c b
  | .unregisterBroadcast broadcastId =>
      guarded s (decodedPathComponent broadcastId) fun b => unregisterBroadcast T s c b
  | .otherResource broadcastId =>
      guarded s (decodedPathComponent broadcastId) fun _ => routeNotFound s
  | .notFound => routeNotFound s

def rateLimitExceeded (retryAfter : String) : RequestError :=
  { message := "Rate limit exceeded", statusCode := 429, retryAfter := some retryAfter }

/-- The methods that change something are counted against the address. -/
def isLimited (method pathname : String) : Bool :=
  pathname ≠ "/health" && (method = "POST" || method = "PUT" || method = "DELETE")

def handle : RestOutcome σ :=
  guarded s
    (match r.retryAfter with
      | some retryAfter =>
          if isLimited r.method r.pathname then .error (rateLimitExceeded retryAfter) else .ok ()
      | none => .ok ())
    fun _ => dispatch T api s r (api.credentials r) r.route

end Handler

end RestApi

end OpenStreamGrid
