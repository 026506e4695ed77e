import OpenStreamGrid.Common.Types
import OpenStreamGrid.Lib.IsoTime

/-!
# The tracker's messages as its clients read them

Each client has a parser of its own for the texts the tracker sends. A text is
modelled by the value `JSON.parse` makes of it, and the tracker's encoder by the value
its text stands for: what is undefined is left out of a text.
-/

namespace OpenStreamGrid

/-! ## The encoder -/

def stringsToJs (xs : List String) : JsValue := .array (xs.map .string)

def Metadata.toJs (metadata : Metadata) : JsValue :=
  .record (metadata.entries.map fun entry => (entry.1, .string entry.2))

def Peer.jsonFields (peer : Peer) : List (String × Option JsValue) :=
  [("id", some (.string peer.id)),
    ("address", some (.string peer.address)),
    ("uploadBandwidthBps", peer.uploadBandwidthBps.map fun bps => .number (.finite bps)),
    ("metadata", peer.metadata.map Metadata.toJs),
    ("segments", some (stringsToJs peer.segments)),
    ("joinedAt", some (.string (IsoTime.toISOString peer.joinedAt))),
    ("lastSeenAt", some (.string (IsoTime.toISOString peer.lastSeenAt))),
    ("latencyMs", some (.number (.finite peer.latencyMs))),
    ("successRate", some (.number (.finite peer.successRate))),
    ("trustScore", some (.number (.finite peer.trustScore)))]

def Peer.toJs (peer : Peer) : JsValue := .ofFields peer.jsonFields

def SegmentInventoryUpdate.jsonFields :
    SegmentInventoryUpdate → List (String × Option JsValue)
  | .delta peerId added removed =>
      [("peerId", some (.string peerId)), ("added", some (stringsToJs added)),
        ("removed", some (stringsToJs removed))]
  | .replace peerId segments =>
      [("peerId", some (.string peerId)), ("segments", some (stringsToJs segments)),
        ("replace", some (.boolean true))]

def SegmentInventoryUpdate.toJs (update : SegmentInventoryUpdate) : JsValue :=
  .ofFields update.jsonFields

namespace WsServerMessage

def type : WsServerMessage → String
  | .peerJoined _ _ => "peer_joined"
  | .peerLeft _ _ => "peer_left"
  | .segmentAvailable _ _ _ _ => "segment_available"
  | .segmentInventoryDelta _ _ _ _ => "segment_inventory_delta"
  | .segmentInventoryBatch _ _ => "segment_inventory_batch"
  | .peerList _ _ => "peer_list"

/-- The fields a message has beside its type and its broadcast. -/
def content : WsServerMessage → List (String × Option JsValue)
  | .peerJoined _ peer => [("peer", some peer.toJs)]
  | .peerLeft _ peerId => [("peerId", some (.string peerId))]
  | .segmentAvailable _ peerId segments replace =>
      [("peerId", some (.string peerId)), ("segments", some (stringsToJs segments)),
        ("replace", if replace then some (.boolean true) else none)]
  | .segmentInventoryDelta _ peerId added removed =>
      [("peerId", some (.string peerId)), ("added", some (stringsToJs added)),
        ("removed", some (stringsToJs removed))]
  | .segmentInventoryBatch _ updates =>
      [("updates", some (.array (updates.map SegmentInventoryUpdate.toJs)))]
  | .peerList _ peers => [("peers", some (.array (peers.map Peer.toJs)))]

def jsonFields (message : WsServerMessage) : List (String × Option JsValue) :=
  ("type", some (.string message.type)) ::
    ("broadcastId", some (.string message.broadcastId)) :: message.content

/-- `JSON.stringify(message)`, as it is parsed. -/
def toJs (message : WsServerMessage) : JsValue := .ofFields message.jsonFields

end WsServerMessage

/-! ## What is decoded -/

/-- A peer as a client keeps it. Its timestamps are texts, which may be missing in the browser. -/
structure PeerRecord (τ : Type) where
  id : PeerId
  address : String
  segments : List SegmentId
  joinedAt : τ
  lastSeenAt : τ
  latencyMs : ℚ
  successRate : ℚ
  trustScore : ℚ
  uploadBandwidthBps : Option ℚ
  metadata : Option Metadata
deriving DecidableEq

/-- The messages that change what a client knows of the audience. -/
inductive PeerUpdateMessage (τ : Type) where
  | peerList (broadcastId : BroadcastId) (peers : List (PeerRecord τ))
  | peerJoined (broadcastId : BroadcastId) (peer : PeerRecord τ)
  | peerLeft (broadcastId : BroadcastId) (peerId : PeerId)
  | segmentAvailable (broadcastId : BroadcastId) (peerId : PeerId) (segments : List SegmentId)
      (replace : Bool)
  | segmentInventoryDelta (broadcastId : BroadcastId) (peerId : PeerId)
      (added removed : List SegmentId)
  | segmentInventoryBatch (broadcastId : BroadcastId) (updates : List SegmentInventoryUpdate)
deriving DecidableEq

def PeerUpdateMessage.broadcastId {τ : Type} : PeerUpdateMessage τ → BroadcastId
  | .peerList broadcastId _ => broadcastId
  | .peerJoined broadcastId _ => broadcastId
  | .peerLeft broadcastId _ => broadcastId
  | .segmentAvailable broadcastId _ _ _ => broadcastId
  | .segmentInventoryDelta broadcastId _ _ _ => broadcastId
  | .segmentInventoryBatch broadcastId _ => broadcastId

/-! ## What the parsers share -/

namespace JsValue

def isObject : JsValue → Bool
  | .record _ => true
  | _ => false

/-- `isStringArray`, with the strings. -/
def strings? (value : JsValue) : Option (List String) :=
  value.array?.bind fun elements => elements.mapM JsValue.string?

def isTrue : JsValue → Bool
  | .boolean value => value
  | _ => false

/-- A number, where `Number.isFinite` holds of it. -/
def finiteNumber? (value : JsValue) : Option ℚ := value.number?.bind JsNumber.finite?

end JsValue

def addMetadataItem (metadata : Metadata) (field : String × JsValue) : Except String Metadata :=
  match field.2 with
  | .string item =>
      -- assigning `__proto__` a string does nothing
      .ok (if field.1 = "__proto__" then metadata else metadata.set field.1 item)
  | _ => .error "Peer metadata must contain only strings"

def parseMetadata : JsValue → Except String (Option Metadata)
  | .undefined => .ok none
  | .record fields => (fields.foldlM addMetadataItem ∅).map some
  | _ => .error "Peer metadata must contain only strings"

def parseUploadBandwidth (value : JsValue) : Except String (Option ℚ) :=
  if value.isUndefined then .ok none
  else
    match value.finiteNumber? with
    | none => .error "Peer upload bandwidth must be a finite number"
    | some bps => .ok (some bps)

/-- `parseInventoryUpdate`, with the text of its error. -/
def parseInventoryUpdate (invalid : String) (value : JsValue) :
    Except String SegmentInventoryUpdate :=
  match (value.get "peerId").string? with
  | none => .error invalid
  | some peerId =>
      if (value.get "replace").isTrue then
        match (value.get "segments").strings? with
        | none => .error invalid
        | some segments => .ok (.replace peerId segments)
      else
        match (value.get "added").strings?, (value.get "removed").strings? with
        | some added, some removed => .ok (.delta peerId added removed)
        | _, _ => .error invalid

/-- The texts of a parser's errors. -/
structure ParserErrors where
  peerList : String
  peerId : String
  available : String
  delta : String
  batch : String
  update : String

/-- The messages both parsers know, or nothing for any other type. -/
def parseUpdateMessage {τ : Type} (errors : ParserErrors)
    (parsePeer : JsValue → Except String (PeerRecord τ)) (type : String)
    (broadcastId : BroadcastId) (value : JsValue) : Except String (Option (PeerUpdateMessage τ)) :=
  if type = "peer_list" then
    match (value.get "peers").array? with
    | none => .error errors.peerList
    | some peers => (peers.mapM parsePeer).map fun peers => some (.peerList broadcastId peers)
  else if type = "peer_joined" then
    (parsePeer (value.get "peer")).map fun peer => some (.peerJoined broadcastId peer)
  else if type = "peer_left" then
    match (value.get "peerId").string? with
    | none => .error errors.peerId
    | some peerId => .ok (some (.peerLeft broadcastId peerId))
  else if type = "segment_available" then
    match (value.get "peerId").string?, (value.get "segments").strings? with
    | some peerId, some segments =>
        .ok (some (.segmentAvailable broadcastId peerId segments (value.get "replace").isTrue))
    | _, _ => .error errors.available
  else if type = "segment_inventory_delta" then
    match (value.get "peerId").string?, (value.get "added").strings?,
      (value.get "removed").strings? with
    | some peerId, some added, some removed =>
        .ok (some (.segmentInventoryDelta broadcastId peerId added removed))
    | _, _, _ => .error errors.delta
  else if type = "segment_inventory_batch" then
    match (value.get "updates").array? with
    | none => .error errors.batch
    | some updates =>
        (updates.mapM (parseInventoryUpdate errors.update)).map fun updates =>
          some (.segmentInventoryBatch broadcastId updates)
  else .ok none

/-! ## The Node parser -/

namespace TrackerClient

/-- The required fields of a peer; the others are filled in later. -/
def requiredFields? (value : JsValue) :
    Option (Option ℚ → Option Metadata → PeerRecord String) := do
  let id ← (value.get "id").string?
  let address ← (value.get "address").string?
  let segments ← (value.get "segments").strings?
  let joinedAt ← (value.get "joinedAt").string?
  let lastSeenAt ← (value.get "lastSeenAt").string?
  let latencyMs ← (value.get "latencyMs").finiteNumber?
  let successRate ← (value.get "successRate").finiteNumber?
  let trustScore ← (value.get "trustScore").finiteNumber?
  return fun uploadBandwidthBps metadata =>
    ⟨id, address, segments, joinedAt, lastSeenAt, latencyMs, successRate, trustScore,
      uploadBandwidthBps, metadata⟩

def parsePeer (value : JsValue) : Except String (PeerRecord String) :=
  if ¬value.isObject then .error "Peer must be an object"
  else
    match requiredFields? value with
    | none => .error "Peer contains invalid required fields"
    | some peer => do
        let uploadBandwidthBps ← parseUploadBandwidth (value.get "uploadBandwidthBps")
        let metadata ← parseMetadata (value.get "metadata")
        return peer uploadBandwidthBps metadata

def parserErrors : ParserErrors where
  peerList := "Tracker peer list must be an array"
  peerId := "Tracker peer ID must be a string"
  available := "Tracker segment update is invalid"
  delta := "Tracker segment inventory delta is invalid"
  batch := "Tracker segment inventory batch is invalid"
  update := "Tracker segment inventory update is invalid"

/-- Messages of other types are ignored. -/
def parsePeerUpdate (value : JsValue) : Except String (Option (PeerUpdateMessage String)) :=
  match (value.get "type").string?, (value.get "broadcastId").string? with
  | some type, some broadcastId => parseUpdateMessage parserErrors parsePeer type broadcastId value
  | _, _ => .error "Tracker message is missing required fields"

end TrackerClient

/-! ## The browser's parser -/

namespace WsTrackerClient

def requiredFields? (value : JsValue) :
    Option (Option ℚ → Option Metadata → Option String → Option String →
      PeerRecord (Option String)) := do
  let id ← (value.get "id").string?
  let address ← (value.get "address").string?
  let segments ← (value.get "segments").strings?
  let latencyMs ← (value.get "latencyMs").finiteNumber?
  let successRate ← (value.get "successRate").finiteNumber?
  let trustScore ← (value.get "trustScore").finiteNumber?
  return fun uploadBandwidthBps metadata joinedAt lastSeenAt =>
    ⟨id, address, segments, joinedAt, lastSeenAt, latencyMs, successRate, trustScore,
      uploadBandwidthBps, metadata⟩

def parseTimestamp (value : JsValue) : Except String (Option String) :=
  if value.isUndefined then .ok none
  else
    match value.string? with
    | none => .error "Peer timestamps must be strings"
    | some text => .ok (some text)

def parsePeer (value : JsValue) : Except String (PeerRecord (Option String)) :=
  if ¬value.isObject then .error "Peer must be an object"
  else
    match requiredFields? value with
    | none => .error "Peer contains invalid required fields"
    | some peer => do
        let uploadBandwidthBps ← parseUploadBandwidth (value.get "uploadBandwidthBps")
        let metadata ← parseMetadata (value.get "metadata")
        let joinedAt ← parseTimestamp (value.get "joinedAt")
        let lastSeenAt ← parseTimestamp (value.get "lastSeenAt")
        return peer uploadBandwidthBps metadata joinedAt lastSeenAt

def parserErrors : ParserErrors where
  peerList := "Peer list must be an array"
  peerId := "Peer ID must be a string"
  available := "Segment availability message is invalid"
  delta := "Segment inventory delta is invalid"
  batch := "Segment inventory batch is invalid"
  update := "Segment inventory update is invalid"

/-- An offer or an answer, relayed between two peers. -/
structure WebRtcSignal where
  broadcastId : BroadcastId
  peerId : PeerId
  targetPeerId : PeerId
  requestId : String
  sdp : String
  isOffer : Bool

inductive ServerMessage where
  | update (message : PeerUpdateMessage (Option String))
  | statsUpdate (broadcastId : BroadcastId) (peerId : PeerId) (stats : JsValue)
  | webRtcSignal (signal : WebRtcSignal)

def ServerMessage.broadcastId : ServerMessage → BroadcastId
  | .update message => message.broadcastId
  | .statsUpdate broadcastId _ _ => broadcastId
  | .webRtcSignal signal => signal.broadcastId

/-- The message types the Node peer does not read here. -/
def parseOtherMessage (type : String) (broadcastId : BroadcastId) (value : JsValue) :
    Except String ServerMessage :=
  if type = "stats_update" then
    match (value.get "peerId").string? with
    | none => .error "Peer ID must be a string"
    | some peerId => .ok (.statsUpdate broadcastId peerId (value.get "stats"))
  else if type = "webrtc_offer" ∨ type = "webrtc_answer" then
    match (value.get "peerId").string?, (value.get "targetPeerId").string?,
      (value.get "requestId").string?, (value.get "sdp").string? with
    | some peerId, some targetPeerId, some requestId, some sdp =>
        .ok (.webRtcSignal
          ⟨broadcastId, peerId, targetPeerId, requestId, sdp, decide (type = "webrtc_offer")⟩)
    | _, _, _, _ => .error "WebRTC signaling message is invalid"
  else .error ("Unsupported WebSocket message type '" ++ type ++ "'")

def parseServerMessage (value : JsValue) : Except String ServerMessage :=
  match (value.get "type").string? with
  | none => .error "WebSocket message must be an object with a type"
  | some type =>
      match (value.get "broadcastId").string? with
      | none => .error "WebSocket message broadcastId must be a string"
      | some broadcastId => do
          match ← parseUpdateMessage parserErrors parsePeer type broadcastId value with
          | some message => return .update message
          | none => parseOtherMessage type broadcastId value

end WsTrackerClient

end OpenStreamGrid
