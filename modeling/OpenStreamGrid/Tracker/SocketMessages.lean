import OpenStreamGrid.Tracker.InventoryRateLimiter
import OpenStreamGrid.Tracker.RestRequests
import OpenStreamGrid.Tracker.SocketSessions

/-!
# Text messages on the tracker's sockets

What `handleMessage` makes of the text that arrives on a socket: the checks in
the order they are made, each with its error, the budget and the inventory
limiter, and the WebRTC signals that are relayed between the peers of a
broadcast. `data` is what `JSON.parse` makes of a text, or the message it throws.

The listener is handed messages of at most 64 KiB. At a larger one, or a broken
frame, the socket emits an error that nobody listens for, which ends the process:
no run goes on from there.
-/

namespace OpenStreamGrid

inductive WebRtcSignalType where
  | webrtcOffer
  | webrtcAnswer
deriving DecidableEq

def WebRtcSignalType.text : WebRtcSignalType → String
  | .webrtcOffer => "webrtc_offer"
  | .webrtcAnswer => "webrtc_answer"

structure WebRtcSignalMessage where
  type : WebRtcSignalType
  broadcastId : BroadcastId
  peerId : PeerId
  targetPeerId : PeerId
  requestId : String
  sdp : String
deriving DecidableEq

/-- `JSON.stringify(message)`, as it is parsed. -/
def WebRtcSignalMessage.toJs (message : WebRtcSignalMessage) : JsValue :=
  .record [("type", .string message.type.text), ("broadcastId", .string message.broadcastId),
    ("peerId", .string message.peerId), ("targetPeerId", .string message.targetPeerId),
    ("requestId", .string message.requestId), ("sdp", .string message.sdp)]

structure MessageBudget where
  tokens : ℚ
  updatedAt : Timestamp
deriving DecidableEq

def MESSAGE_RATE_PER_SECOND : ℕ := 20
def MESSAGE_BURST : ℕ := 40
def INVALID_MESSAGE_CLOSE_CODE : ℕ := 1008
def UNSUPPORTED_DATA_CLOSE_CODE : ℕ := 1003
def MAX_CLOSE_REASON_LENGTH : ℕ := 120

structure CloseFrame where
  socket : SocketId
  code : ℕ
  reason : String
deriving DecidableEq

/-- What `Date.now()` says to the message budget, the limiter and the store. -/
structure ClockReadings where
  budget : Timestamp
  limiter : Timestamp
  store : Timestamp

/-- `slice(0, n)`. Half of a character that does not fit is sent as U+FFFD. -/
def sliceUnits : ℕ → List Char → List Char
  | _, [] => []
  | n, c :: rest =>
      let units := if c.toNat < 0x10000 then 1 else 2
      if units ≤ n then c :: sliceUnits (n - units) rest
      else if n = 0 then []
      else ['\uFFFD']

/-- The hub with what it needs to read messages. -/
structure MessageHub where
  hub : TrackerWebSocketHub
  messageBudgets : OrderedMap SocketId MessageBudget
  inventoryLimiter : InventoryRateLimiter
  /-- The WebRTC signals sent to each socket, in order. -/
  signals : SocketId → List WebRtcSignalMessage
  closeFrames : List CloseFrame
  /-- The signals accepted so far, each with the socket it came from. -/
  accepted : List (SocketId × WebRtcSignalMessage)

/-- The three fields that every message has. -/
structure Envelope where
  parsed : JsonObject
  type : String
  broadcastId : BroadcastId
  peerId : PeerId

namespace MessageHub

/-! ## Fields -/

def requiredString (message : JsonObject) (key : String) : Except String String :=
  match message.get key with
  | .string value => OpenStreamGrid.requiredString key value
  | _ => .error ("'" ++ key ++ "' must be a non-empty string")

def readEnvelope (data : Except String JsValue) : Except String Envelope := do
  match ← data with
  | .record parsed =>
      let type ← requiredString parsed "type"
      let broadcastId ← requiredString parsed "broadcastId"
      let peerId ← requiredString parsed "peerId"
      return ⟨parsed, type, broadcastId, peerId⟩
  | _ => .error "Message must be a JSON object"

/-- The features of a subscription, if they are declared properly or not at all. -/
def readFeatures : JsValue → Option (Option (List String))
  | .undefined => some none
  | value =>
      match value.array?.bind (·.mapM JsValue.string?) with
      | none => none
      | some names => if names.length > MAX_SUBSCRIBE_FEATURES then none else some (some names)

def requiredSegments (value : JsValue) : Except String (List SegmentId) :=
  match segmentIdListOf value with
  | some segments => .ok segments
  | none => .error "'segments' must be an array of strings"

/-- `value ?? []` -/
def orEmptyArray : JsValue → JsValue
  | .undefined | .null => .array []
  | value => value

def readReport (parsed : JsonObject) : Except String ReportSegmentsMessage :=
  if (parsed.get "added").isUndefined = false ∨ (parsed.get "removed").isUndefined = false then do
    let added ← requiredSegments (orEmptyArray (parsed.get "added"))
    let removed ← requiredSegments (orEmptyArray (parsed.get "removed"))
    return ⟨none, none, some added, some removed⟩
  else do
    let segments ← requiredSegments (parsed.get "segments")
    match parsed.get "replace" with
    | .undefined => return ⟨some segments, none, none, none⟩
    | .boolean replace => return ⟨some segments, some replace, none, none⟩
    | _ => .error "'replace' must be a boolean"

def signalType? : String → Option WebRtcSignalType
  | "webrtc_offer" => some .webrtcOffer
  | "webrtc_answer" => some .webrtcAnswer
  | _ => none

def readSignal (type : WebRtcSignalType) (envelope : Envelope) :
    Except String WebRtcSignalMessage := do
  let targetPeerId ← requiredString envelope.parsed "targetPeerId"
  let requestId ← requiredString envelope.parsed "requestId"
  let sdp ← requiredString envelope.parsed "sdp"
  return ⟨type, envelope.broadcastId, envelope.peerId, targetPeerId, requestId, sdp⟩

/-- The signal that a text is. -/
def signalOf (data : Except String JsValue) : Option WebRtcSignalMessage :=
  match readEnvelope data with
  | .error _ => none
  | .ok envelope =>
      (signalType? envelope.type).bind fun type => (readSignal type envelope).toOption

/-- The lists that the limiter charges for a report. -/
def chargedLists (report : ReportSegmentsMessage) : List (List SegmentId) :=
  match report.segments with
  | some segments => [segments]
  | none => [report.added.getD [], report.removed.getD []]

/-! ## Handling -/

def new (viewersPerFlushTurn : ℕ) (neighborViewSize : ℕ) (random : Stream' Draw)
    (store : TrackerStore) (rates : InventoryRates) : MessageHub :=
  ⟨.new viewersPerFlushTurn neighborViewSize random store, ∅, .new rates, fun _ => [], [], []⟩

/-- The state after a message, with the reason if it is refused. -/
abbrev Handled := MessageHub × Option String

def adopt (m : MessageHub) : Except String TrackerWebSocketHub → Handled
  | .error reason => (m, some reason)
  | .ok hub => ({ m with hub := hub }, none)

/-- The sockets a signal is sent to. -/
def recipients (m : MessageHub) (message : WebRtcSignalMessage) : List SocketId :=
  (m.hub.subscribersOf message.broadcastId).filter fun s =>
    (m.hub.subscriptions.get? s).map Subscription.peerId = some message.targetPeerId ∧
      (m.hub.sockets.get? s).any Socket.isOpen

def relayWebRtcSignal (m : MessageHub) (socket : SocketId) (message : WebRtcSignalMessage) :
    MessageHub :=
  { m with
    signals := fun s =>
      if s ∈ m.recipients message then m.signals s ++ [message] else m.signals s
    accepted := m.accepted ++ [(socket, message)] }

def handleSubscribe (m : MessageHub) (socket : SocketId) (envelope : Envelope) : Handled :=
  let claims : PeerSessionClaims := ⟨envelope.broadcastId, envelope.peerId⟩
  if m.hub.claimsOf socket ≠ some claims ∨ m.hub.peerExists claims = false then
    (m, some "Subscription does not match the authenticated peer session")
  else
    match readFeatures (envelope.parsed.get "features") with
    | none => (m, some "'features' must be an array of strings")
    | some features =>
        m.adopt (m.hub.handleSubscribe socket envelope.broadcastId envelope.peerId features)

/-- Whether the socket subscribed as this peer. -/
def isSubscribed (m : MessageHub) (socket : SocketId) (broadcastId : BroadcastId)
    (peerId : PeerId) : Bool :=
  (m.hub.subscriptions.get? socket).any fun subscription =>
    subscription.broadcastId = broadcastId ∧ subscription.peerId = peerId

def handleReport (m : MessageHub) (socket : SocketId) (clock : ClockReadings)
    (envelope : Envelope) : Handled :=
  match readReport envelope.parsed with
  | .error reason => (m, some reason)
  | .ok report =>
      let (limiter, admitted) := m.inventoryLimiter.consume
        ⟨envelope.broadcastId, envelope.peerId, chargedLists report, clock.limiter⟩
      { m with inventoryLimiter := limiter }.adopt
        (m.hub.handleReport socket admitted clock.store envelope.broadcastId envelope.peerId report)

/-- A store operation, or the message of its error. -/
def adoptStore {α : Type} (m : MessageHub) :
    Except StoreError (TrackerStore × α) → Handled
  | .error e => (m, some e.message)
  | .ok (store, _) => ({ m with hub := { m.hub with store := store } }, none)

def handleHeartbeat (m : MessageHub) (clock : ClockReadings) (envelope : Envelope) : Handled :=
  match readHeartbeat envelope.parsed with
  | .error e => (m, some e.message)
  | .ok heartbeat =>
      m.adoptStore
        (m.hub.store.heartbeat clock.store envelope.broadcastId envelope.peerId heartbeat)

def handleStats (m : MessageHub) (clock : ClockReadings) (envelope : Envelope) : Handled :=
  match parsePeerTrafficStats (envelope.parsed.get "stats") with
  | .error reason => (m, some reason)
  | .ok stats =>
      m.adoptStore
        (m.hub.store.reportStats clock.store envelope.broadcastId envelope.peerId stats)

def handleMessage (m : MessageHub) (socket : SocketId) (clock : ClockReadings)
    (data : Except String JsValue) : Handled :=
  match readEnvelope data with
  | .error reason => (m, some reason)
  | .ok envelope =>
      if envelope.type = "subscribe" then m.handleSubscribe socket envelope
      else if m.isSubscribed socket envelope.broadcastId envelope.peerId = false then
        (m, some "Message does not match the WebSocket subscription")
      else
        match signalType? envelope.type with
        | some type =>
            match readSignal type envelope with
            | .error reason => (m, some reason)
            | .ok message => (m.relayWebRtcSignal socket message, none)
        | none =>
            if envelope.type = "heartbeat" then m.handleHeartbeat clock envelope
            else if envelope.type = "report_segments" then m.handleReport socket clock envelope
            else if envelope.type = "report_stats" then m.handleStats clock envelope
            else (m, some ("Unsupported message type '" ++ envelope.type ++ "'"))

def consumeMessageBudget (m : MessageHub) (socket : SocketId) (now : Timestamp) :
    MessageHub × Bool :=
  match m.messageBudgets.get? socket with
  | none => (m, false)
  | some budget =>
      let tokens := min (MESSAGE_BURST : ℚ)
        (budget.tokens + ((now - budget.updatedAt : ℤ) : ℚ) / 1000 * MESSAGE_RATE_PER_SECOND)
      if tokens < 1 then
        ({ m with messageBudgets := m.messageBudgets.set socket ⟨tokens, now⟩ }, false)
      else ({ m with messageBudgets := m.messageBudgets.set socket ⟨tokens - 1, now⟩ }, true)

/-- `socket.close` with a code and a reason. -/
def close (m : MessageHub) (socket : SocketId) (code : ℕ) (reason : String) : MessageHub :=
  { m with
    hub := m.hub.close socket
    closeFrames := m.closeFrames ++ [⟨socket, code, reason⟩] }

/-- The listener of a socket's messages. -/
def onMessage (m : MessageHub) (socket : SocketId) (isBinary : Bool) (clock : ClockReadings)
    (data : Except String JsValue) : MessageHub :=
  if isBinary then
    m.close socket UNSUPPORTED_DATA_CLOSE_CODE "Binary messages are not supported"
  else
    match m.consumeMessageBudget socket clock.budget with
    | (m, false) => m.close socket INVALID_MESSAGE_CLOSE_CODE "Message rate limit exceeded"
    | (m, true) =>
        match m.handleMessage socket clock data with
        | (m, none) => m
        | (m, some reason) =>
            m.close socket INVALID_MESSAGE_CLOSE_CODE
              (String.ofList (sliceUnits MAX_CLOSE_REASON_LENGTH reason.toList))

/-! ## As a system -/

end MessageHub

inductive MessageHubEvent where
  /-- Anything that is not about a socket's messages, or its coming and going. -/
  | hub (event : HubEvent)
  | connected (socket : SocketId) (claims : PeerSessionClaims) (now : Timestamp)
  /-- A message within the payload limit. -/
  | message (socket : SocketId) (isBinary : Bool) (clock : ClockReadings)
      (data : Except String JsValue)
  | closed (socket : SocketId)

/-- The hub's events that `MessageHubEvent` has its own for. -/
def HubEvent.isSocketEvent : HubEvent → Bool
  | .connected .. | .received .. | .closed .. => true
  | _ => false

namespace MessageHub

def step (m : MessageHub) : MessageHubEvent → Option MessageHub
  | .hub event =>
      if event.isSocketEvent then none
      else (m.hub.step event).map fun hub => { m with hub := hub }
  | .connected socket claims now =>
      (m.hub.step (.connected socket claims)).map fun hub =>
        { m with
          hub := hub
          messageBudgets := m.messageBudgets.set socket ⟨MESSAGE_BURST, now⟩ }
  | .message socket isBinary clock data =>
      if socket ∈ m.hub.subscriptions then some (m.onMessage socket isBinary clock data) else none
  | .closed socket =>
      (m.hub.step (.closed socket)).map fun hub =>
        { m with
          hub := hub
          messageBudgets := m.messageBudgets.delete socket }

/-- A tracker that starts over a store whose records carry the ID they are
stored under. -/
def system : TransitionSystem MessageHub MessageHubEvent where
  init m := ∃ perTurn size random store rates, m = .new perTurn size random store rates ∧
    ∀ b p peer, store.getPeer b p = some peer → peer.id = p
  step := step

end MessageHub

end OpenStreamGrid
