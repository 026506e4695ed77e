import OpenStreamGrid.Lib.TransitionSystem
import OpenStreamGrid.Tracker.Hub

/-!
# The hub as a system

Subscriptions and what arrives on a socket, and the tracker's event handlers as
the labels of one transition system: joins, leaves, stale sweeps, socket
messages, sockets that close, batch timers and the turns of a running flush, in
any order.
-/

namespace OpenStreamGrid

namespace BroadcastSubscribers

def new (id : ℕ) : BroadcastSubscribers := ⟨id, ∅, ∅, ∅⟩

def add (s : BroadcastSubscribers) (socket : SocketId) (subscription : Subscription) :
    BroadcastSubscribers :=
  if subscription.neighborView then
    { s with
      viewers := s.viewers.set subscription.peerId
        (((s.viewers.get? subscription.peerId).getD ∅).insert socket) }
  else if subscription.inventoryBatch then { s with batched := s.batched.insert socket }
  else { s with immediate := s.immediate.insert socket }

def remove (s : BroadcastSubscribers) (socket : SocketId) (peerId : PeerId) :
    BroadcastSubscribers where
  id := s.id
  immediate := s.immediate.erase socket
  batched := s.batched.erase socket
  viewers :=
    match s.viewers.get? peerId with
    | none => s.viewers
    | some sockets =>
        if (sockets.erase socket).size = 0 then s.viewers.delete peerId
        else s.viewers.set peerId (sockets.erase socket)

def isEmpty (s : BroadcastSubscribers) : Bool :=
  s.immediate.size = 0 ∧ s.batched.size = 0 ∧ s.viewers.size = 0

end BroadcastSubscribers

/-- What a client sends that concerns subscribers or inventories. -/
inductive SocketMessage where
  | subscribe (broadcastId : BroadcastId) (peerId : PeerId) (features : Option (List String))
  | reportSegments (broadcastId : BroadcastId) (peerId : PeerId) (message : ReportSegmentsMessage)
deriving DecidableEq

namespace SocketMessage

def broadcastId : SocketMessage → BroadcastId
  | .subscribe b _ _ | .reportSegments b _ _ => b

def peerId : SocketMessage → PeerId
  | .subscribe _ p _ | .reportSegments _ p _ => p

end SocketMessage

/-- The characters that `trim()` removes. -/
def isWhiteSpace (c : Char) : Bool :=
  c.toNat ∈ [0x9, 0xA, 0xB, 0xC, 0xD, 0x20, 0xA0, 0x1680, 0x2028, 0x2029, 0x202F, 0x205F, 0x3000,
    0xFEFF] || (0x2000 ≤ c.toNat && c.toNat ≤ 0x200A)

def requiredString (key value : String) : Except String String :=
  if value.toList.all isWhiteSpace then .error ("'" ++ key ++ "' must be a non-empty string")
  else .ok value

namespace TrackerWebSocketHub

/-! ## Subscriptions -/

def unindexSubscription (h : TrackerWebSocketHub) (socket : SocketId) : TrackerWebSocketHub :=
  match h.subscriptions.get? socket with
  | none => h
  | some subscription =>
      if subscription.broadcastId = "" then h
      else
        match h.subscribersByBroadcast.get? subscription.broadcastId with
        | none => h
        | some subscribers =>
            let remaining := subscribers.remove socket subscription.peerId
            { h with
              subscribersByBroadcast :=
                if remaining.isEmpty then h.subscribersByBroadcast.delete subscription.broadcastId
                else h.subscribersByBroadcast.set subscription.broadcastId remaining }

def setSubscription (h : TrackerWebSocketHub) (socket : SocketId) (subscription : Subscription) :
    TrackerWebSocketHub :=
  let h := h.unindexSubscription socket
  let h := { h with subscriptions := h.subscriptions.set socket subscription }
  match h.subscribersByBroadcast.get? subscription.broadcastId with
  | some subscribers =>
      { h with
        subscribersByBroadcast := h.subscribersByBroadcast.set subscription.broadcastId
          (subscribers.add socket subscription) }
  | none =>
      { h with
        subscribersByBroadcast := h.subscribersByBroadcast.set subscription.broadcastId
          ((BroadcastSubscribers.new h.subscribersCreated).add socket subscription)
        subscribersCreated := h.subscribersCreated + 1 }

/-- The socket takes no further messages; its subscription stays for now. -/
def close (h : TrackerWebSocketHub) (socket : SocketId) : TrackerWebSocketHub :=
  { h with sockets := h.sockets.modify socket fun found => { found with isOpen := false } }

def removeSocket (h : TrackerWebSocketHub) (socket : SocketId) : TrackerWebSocketHub :=
  let h := (h.close socket).unindexSubscription socket
  { h with subscriptions := h.subscriptions.delete socket }

/-- The sockets subscribed to a broadcast. -/
def subscribersOf (h : TrackerWebSocketHub) (broadcastId : BroadcastId) : List SocketId :=
  match h.subscribersByBroadcast.get? broadcastId with
  | none => []
  | some s =>
      s.immediate.toList ++ s.batched.toList ++ s.viewers.values.flatMap OrderedSet.toList

/-- Closes a subscriber of a broadcast that is gone. -/
def dropSubscriber (h : TrackerWebSocketHub) (socket : SocketId) : TrackerWebSocketHub :=
  let h := h.unindexSubscription socket
  { h with subscriptions := h.subscriptions.set socket EMPTY_SUBSCRIPTION }.close socket

def broadcastRemoved (h : TrackerWebSocketHub) (broadcastId : BroadcastId) :
    TrackerWebSocketHub :=
  let h :=
    { h with
      timers := if broadcastId ∈ h.pendingInventory then h.timers.erase broadcastId else h.timers
      pendingInventory := h.pendingInventory.delete broadcastId
      neighborViews := h.neighborViews.map fun v : NeighborViews => v.removeBroadcast broadcastId }
  (h.subscribersOf broadcastId).foldl dropSubscriber h

/-! ## What arrives on a socket -/

def peerExists (h : TrackerWebSocketHub) (claims : PeerSessionClaims) : Bool :=
  (h.store.getPeer claims.broadcastId claims.peerId).isSome

def handleSubscribe (h : TrackerWebSocketHub) (socket : SocketId) (broadcastId : BroadcastId)
    (peerId : PeerId) (features : Option (List String)) : Except String TrackerWebSocketHub :=
  let claims := (h.sockets.get? socket).map Socket.claims
  if claims ≠ some ⟨broadcastId, peerId⟩ ∨ h.peerExists ⟨broadcastId, peerId⟩ = false then
    .error "Subscription does not match the authenticated peer session"
  else if features.any (fun names => decide (names.length > MAX_SUBSCRIBE_FEATURES)) then
    .error "'features' must be an array of strings"
  else
    let inventoryBatch := features.any fun names => decide (WS_FEATURE_INVENTORY_BATCH ∈ names)
    let neighborView := inventoryBatch &&
      features.any (fun names => decide (WS_FEATURE_NEIGHBOR_VIEW ∈ names)) &&
      h.neighborViews.isSome
    let subscription : Subscription := ⟨broadcastId, peerId, inventoryBatch, neighborView⟩
    match if neighborView then h.seededViews broadcastId else none with
    | some views =>
        -- topped up before the socket is indexed: the new neighbors arrive in the peer list
        let (views, fill) := (views.add broadcastId peerId).fill broadcastId peerId
        let h := { h with neighborViews := some views }.deliver
          (h.announceFill broadcastId peerId fill (h.store.getPeer broadcastId))
        let listed := peerId :: ((views.view broadcastId peerId).getD ∅).toList
        .ok ((h.setSubscription socket subscription).deliver
          [(socket, .peerList broadcastId (listed.filterMap (h.store.getPeer broadcastId)))])
    | none =>
        match h.store.listPeers broadcastId none with
        | .error e => .error e.message
        | .ok peers =>
            .ok ((h.setSubscription socket subscription).deliver
              [(socket, .peerList broadcastId peers)])

/-- The `report_segments` branch, with what it publishes. -/
def handleReport (h : TrackerWebSocketHub) (socket : SocketId) (admitted : Bool)
    (timestamp : Timestamp) (broadcastId : BroadcastId) (peerId : PeerId)
    (message : ReportSegmentsMessage) : Except String TrackerWebSocketHub :=
  let subscription := h.subscriptions.get? socket
  if subscription.map Subscription.broadcastId ≠ some broadcastId ∨
      subscription.map Subscription.peerId ≠ some peerId then
    .error "Message does not match the WebSocket subscription"
  else
    match handleReportSegments h.store admitted timestamp broadcastId peerId message with
    | .error reason => .error reason
    | .ok (store, none) => .ok { h with store := store }
    | .ok (store, some published) => .ok ({ h with store := store }.publishInventory published)

def handleMessage (h : TrackerWebSocketHub) (socket : SocketId) (admitted : Bool)
    (timestamp : Timestamp) (message : SocketMessage) : Except String TrackerWebSocketHub :=
  match requiredString "broadcastId" message.broadcastId,
      requiredString "peerId" message.peerId with
  | .error reason, _ => .error reason
  | .ok _, .error reason => .error reason
  | .ok broadcastId, .ok peerId =>
      match message with
      | .subscribe _ _ features => h.handleSubscribe socket broadcastId peerId features
      | .reportSegments _ _ report =>
          h.handleReport socket admitted timestamp broadcastId peerId report

end TrackerWebSocketHub

/-! ## Events -/

inductive HubEvent where
  | registerBroadcast (timestamp : Timestamp) (registration : BroadcastRegistration)
  /-- By request, or with the lease of an origin that is gone. -/
  | unregisterBroadcast (broadcastId : BroadcastId)
  /-- First, again after a leave, or as a refresh. -/
  | joinPeer (timestamp : Timestamp) (broadcastId : BroadcastId) (request : PeerJoinRequest)
      (options : JoinPeerOptions)
  | leavePeer (broadcastId : BroadcastId) (peerId : PeerId)
  | removeStalePeers (now : Timestamp) (maxAgeMs : ℤ)
  | heartbeat (timestamp : Timestamp) (broadcastId : BroadcastId) (peerId : PeerId)
      (heartbeat : PeerHeartbeat)
  | reportStats (timestamp : Timestamp) (broadcastId : BroadcastId) (peerId : PeerId)
      (stats : TrafficRecord JsNumber)
  /-- A new socket, whose session names a stored peer. -/
  | connected (socket : SocketId) (claims : PeerSessionClaims)
  /-- `admitted` is the rate limiter's answer. -/
  | received (socket : SocketId) (admitted : Bool) (timestamp : Timestamp)
      (message : SocketMessage)
  /-- The peer begins to close, the session expires, a message is malformed or
  too frequent, or the socket is terminated because it does not drain. -/
  | closing (socket : SocketId)
  | closed (socket : SocketId)
  /-- The batch interval is over. -/
  | batchTimer (broadcastId : BroadcastId)
  /-- The next event-loop turn of a flush. -/
  | flushTurn (broadcastId : BroadcastId)

namespace TrackerWebSocketHub

/-- A refused request changes nothing. -/
def withStore {α : Type} (h : TrackerWebSocketHub)
    (result : Except StoreError (TrackerStore × α)) : TrackerWebSocketHub :=
  match result with
  | .error _ => h
  | .ok (store, _) => { h with store := store }

def step (h : TrackerWebSocketHub) : HubEvent → Option TrackerWebSocketHub
  | .registerBroadcast timestamp registration =>
      some { h with store := (h.store.registerBroadcast timestamp registration).1 }
  | .unregisterBroadcast broadcastId =>
      match h.store.unregisterBroadcast broadcastId with
      | .error _ => some h
      | .ok store => some ({ h with store := store }.broadcastRemoved broadcastId)
  | .joinPeer timestamp broadcastId request options =>
      match h.store.joinPeerDetailed timestamp broadcastId request options with
      | .error _ => some h
      | .ok (store, _, true) => some { h with store := store }
      | .ok (store, peer, false) => some ({ h with store := store }.peerJoined broadcastId peer)
  | .leavePeer broadcastId peerId =>
      match h.store.leavePeer broadcastId peerId with
      | .error _ => some h
      | .ok store => some ({ h with store := store }.peerLeft broadcastId peerId)
  | .removeStalePeers now maxAgeMs =>
      let (store, removed) := h.store.removeStalePeers now maxAgeMs
      some (removed.foldl (fun h x => h.peerLeft x.broadcastId x.peerId) { h with store := store })
  | .heartbeat timestamp broadcastId peerId heartbeat =>
      some (h.withStore (h.store.heartbeat timestamp broadcastId peerId heartbeat))
  | .reportStats timestamp broadcastId peerId stats =>
      some (h.withStore (h.store.reportStats timestamp broadcastId peerId stats))
  | .connected socket claims =>
      if socket ∈ h.sockets ∨ h.peerExists claims = false then none
      else
        some { h with
          sockets := h.sockets.set socket ⟨claims, true, []⟩
          subscriptions := h.subscriptions.set socket EMPTY_SUBSCRIPTION }
  | .received socket admitted timestamp message =>
      if socket ∈ h.subscriptions then
        match h.handleMessage socket admitted timestamp message with
        | .error _ => some (h.close socket)
        | .ok h' => some h'
      else none
  | .closing socket => if socket ∈ h.sockets then some (h.close socket) else none
  | .closed socket => if socket ∈ h.subscriptions then some (h.removeSocket socket) else none
  | .batchTimer broadcastId =>
      if broadcastId ∈ h.timers then
        some ({ h with timers := h.timers.erase broadcastId }.flushInventory broadcastId)
      else none
  | .flushTurn broadcastId =>
      match h.immediates.get? broadcastId with
      | none => none
      | some job =>
          some ({ h with immediates := h.immediates.delete broadcastId }.sendViewerBatches
            broadcastId job)

/-- A tracker that starts over a store whose records carry the ID they are
stored under. -/
def system : TransitionSystem TrackerWebSocketHub HubEvent where
  init h := ∃ perTurn size random store, h = .new perTurn size random store ∧
    ∀ b p peer, store.getPeer b p = some peer → peer.id = p
  step := step

end TrackerWebSocketHub

/-- The directory of a client that applied what its socket was sent, in order. -/
def Socket.directory (socket : Socket) (broadcastId : BroadcastId) : PeerDirectory :=
  (PeerDirectory.new broadcastId).handleMessages socket.sent

end OpenStreamGrid
