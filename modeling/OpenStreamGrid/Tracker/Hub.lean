import OpenStreamGrid.Tracker.InventoryReports
import OpenStreamGrid.Tracker.NeighborViews

/-!
# The WebSocket hub

The tracker's fan-out: which sockets are subscribed to which broadcast and how,
the neighbor views, the inventory changes waiting for the next batch, and the
flushes that send a batch to neighbor-view subscribers in slices over several
event-loop turns. A handler returns the next hub; what it sends is appended to
the logs of the open sockets, in order. Closing, terminating and expiring
sockets are events of their own, so a handler never closes one in passing
except the one whose message it refuses.
-/

namespace OpenStreamGrid

abbrev SocketId := ℕ

structure PeerSessionClaims where
  broadcastId : BroadcastId
  peerId : PeerId
deriving DecidableEq

structure Subscription where
  broadcastId : BroadcastId
  peerId : PeerId
  /-- The client negotiated `inventory_batch` in its subscribe message. -/
  inventoryBatch : Bool
  /-- The client negotiated `neighbor_view` and the tracker has it enabled. -/
  neighborView : Bool
deriving DecidableEq

structure BroadcastSubscribers where
  /-- Identity of the object: a broadcast that loses its last subscriber and
  gains another has a new one. -/
  id : ℕ
  /-- Receive every inventory update as its own message. -/
  immediate : OrderedSet SocketId
  /-- Receive inventory updates merged into periodic batches. -/
  batched : OrderedSet SocketId
  /-- Batched subscribers limited to their peer's neighbor view, by peer ID. -/
  viewers : OrderedMap PeerId (OrderedSet SocketId)
deriving DecidableEq

def EMPTY_SUBSCRIPTION : Subscription := ⟨"", "", false, false⟩

/-- Net inventory change for one peer since the last batch flush. -/
inductive PendingInventory where
  | replace (segments : OrderedSet SegmentId)
  | delta (added removed : OrderedSet SegmentId)
deriving DecidableEq

/-- The next call of `sendViewerBatches` for a broadcast. -/
structure FlushJob where
  subscribers : ℕ
  updates : OrderedMap PeerId SegmentInventoryUpdate
  viewerIds : List PeerId
  start : ℕ
deriving DecidableEq

/-- A WebSocket: its session, whether it is open, and everything sent to it. -/
structure Socket where
  claims : PeerSessionClaims
  isOpen : Bool
  sent : List WsServerMessage
deriving DecidableEq

def MAX_UPDATES_PER_BATCH : ℕ := 256
def MAX_SUBSCRIBE_FEATURES : ℕ := 16
def WS_FEATURE_INVENTORY_BATCH : String := "inventory_batch"
def WS_FEATURE_NEIGHBOR_VIEW : String := "neighbor_view"

structure TrackerWebSocketHub where
  viewersPerFlushTurn : ℕ
  store : TrackerStore
  sockets : OrderedMap SocketId Socket
  subscriptions : OrderedMap SocketId Subscription
  subscribersByBroadcast : OrderedMap BroadcastId BroadcastSubscribers
  /-- How many `BroadcastSubscribers` objects were created so far. -/
  subscribersCreated : ℕ
  pendingInventory : OrderedMap BroadcastId (OrderedMap PeerId PendingInventory)
  /-- Broadcasts with a batch timer running. -/
  timers : List BroadcastId
  /-- Broadcasts whose flush is still sending to viewers, and those waiting. -/
  flushing : OrderedSet BroadcastId
  flushRequested : OrderedSet BroadcastId
  /-- What `setImmediate` runs next; `flushing` admits one flush a broadcast. -/
  immediates : OrderedMap BroadcastId FlushJob
  neighborViews : Option NeighborViews

/-- Messages, each with the socket it is sent to. -/
abbrev Outgoing := List (SocketId × WsServerMessage)

/-- One message to several sockets. -/
def sendToAll (sockets : OrderedSet SocketId) (message : WsServerMessage) : Outgoing :=
  sockets.toList.map fun socket => (socket, message)

/-- A batch message for every `MAX_UPDATES_PER_BATCH` updates. -/
def sendBatch (broadcastId : BroadcastId) (updates : List SegmentInventoryUpdate)
    (sockets : OrderedSet SocketId) : Outgoing :=
  (List.range ((updates.length + (MAX_UPDATES_PER_BATCH - 1)) / MAX_UPDATES_PER_BATCH)).flatMap
    fun i => sendToAll sockets (.segmentInventoryBatch broadcastId
      ((updates.drop (i * MAX_UPDATES_PER_BATCH)).take MAX_UPDATES_PER_BATCH))

/-- Merges a report into what is pending, in the order clients apply a delta:
removals, then additions. -/
def mergePending (pending : Option PendingInventory) : InventoryMessage → PendingInventory
  | .segmentAvailable _ _ segments true => .replace (.ofList segments)
  | .segmentAvailable _ _ segments false => mergeDelta segments []
  | .segmentInventoryDelta _ _ added removed => mergeDelta added removed
where
  mergeDelta (added removed : List SegmentId) : PendingInventory :=
    match pending with
    | some (.replace segments) => .replace ((segments.eraseAll removed).insertAll added)
    | some (.delta pendingAdded pendingRemoved) =>
        .delta ((pendingAdded.eraseAll removed).insertAll added)
          ((pendingRemoved.insertAll removed).eraseAll added)
    | none =>
        .delta (((∅ : OrderedSet SegmentId).eraseAll removed).insertAll added)
          (((∅ : OrderedSet SegmentId).insertAll removed).eraseAll added)

/-- What a batch says of a pending change. -/
def PendingInventory.toUpdate (peerId : PeerId) : PendingInventory → SegmentInventoryUpdate
  | .replace segments => .replace peerId segments.toList
  | .delta added removed => .delta peerId added.toList removed.toList

/-- A map of the same keys. -/
def toUpdates (pending : OrderedMap PeerId PendingInventory) :
    OrderedMap PeerId SegmentInventoryUpdate :=
  pending.mapWithKey PendingInventory.toUpdate

namespace TrackerWebSocketHub

def new (viewersPerFlushTurn : ℕ) (neighborViewSize : ℕ) (random : Stream' Draw)
    (store : TrackerStore) : TrackerWebSocketHub where
  viewersPerFlushTurn := viewersPerFlushTurn
  store := store
  sockets := ∅
  subscriptions := ∅
  subscribersByBroadcast := ∅
  subscribersCreated := 0
  pendingInventory := ∅
  timers := []
  flushing := ∅
  flushRequested := ∅
  immediates := ∅
  neighborViews := if 0 < neighborViewSize then some (.new neighborViewSize random) else none

/-! ## Sending -/

/-- Appends what is sent to the logs of the open sockets. -/
def deliver (h : TrackerWebSocketHub) (out : Outgoing) : TrackerWebSocketHub :=
  { h with
    sockets := out.foldl
      (fun sockets entry => sockets.modify entry.1 fun socket =>
        if socket.isOpen then { socket with sent := socket.sent ++ [entry.2] } else socket)
      h.sockets }

/-- The neighbor-view sockets of a peer. -/
def viewerSockets (h : TrackerWebSocketHub) (broadcastId : BroadcastId) (peerId : PeerId) :
    OrderedSet SocketId :=
  ((h.subscribersByBroadcast.get? broadcastId).bind fun s => s.viewers.get? peerId).getD ∅

def hasViewer (h : TrackerWebSocketHub) (broadcastId : BroadcastId) (peerId : PeerId) : Bool :=
  (h.viewerSockets broadcastId peerId).size > 0

def sendToViewer (h : TrackerWebSocketHub) (broadcastId : BroadcastId) (peerId : PeerId)
    (message : WsServerMessage) : Outgoing :=
  sendToAll (h.viewerSockets broadcastId peerId) message

/-- Sends to subscribers that see the whole audience. -/
def broadcast (h : TrackerWebSocketHub) (message : WsServerMessage) : Outgoing :=
  match h.subscribersByBroadcast.get? message.broadcastId with
  | none => []
  | some subscribers =>
      sendToAll subscribers.immediate message ++ sendToAll subscribers.batched message

/-- Tells neighbor-view clients about links that a view fill created or
dropped. Peers are looked up only for clients that are connected. -/
def announceFill (h : TrackerWebSocketHub) (broadcastId : BroadcastId) (peerId : PeerId)
    (fill : NeighborViewFill) (lookup : PeerId → Option Peer) : Outgoing :=
  let added :=
    if h.hasViewer broadcastId peerId then
      (fill.added.filterMap lookup).flatMap fun peer =>
        h.sendToViewer broadcastId peerId (.peerJoined broadcastId peer)
    else []
  let watchers := fill.reciprocal.filter fun watcher => h.hasViewer broadcastId watcher
  let filled := if watchers.length > 0 then lookup peerId else none
  let reciprocal :=
    match filled with
    | none => []
    | some peer =>
        watchers.flatMap fun watcher =>
          h.sendToViewer broadcastId watcher (.peerJoined broadcastId peer)
  let evicted := fill.evicted.flatMap fun e =>
    h.sendToViewer broadcastId e.watcher (.peerLeft broadcastId e.peerId)
  added ++ reciprocal ++ evicted

/-! ## Membership -/

/-- Neighbor views with every stored peer of the broadcast registered, once the
broadcast's views are needed for the first time. -/
def seededViews (h : TrackerWebSocketHub) (broadcastId : BroadcastId) : Option NeighborViews :=
  h.neighborViews.map fun views =>
    if views.has broadcastId then views
    else
      match h.store.listPeers broadcastId none with
      | .ok peers => peers.foldl (fun views peer => views.add broadcastId peer.id) views
      | .error _ => views

def peerJoined (h : TrackerWebSocketHub) (broadcastId : BroadcastId) (peer : Peer) :
    TrackerWebSocketHub :=
  let announced := h.broadcast (.peerJoined broadcastId peer)
  match h.seededViews broadcastId with
  | none => h.deliver announced
  | some views =>
      let (views, fill) := (views.add broadcastId peer.id).fill broadcastId peer.id
      { h with neighborViews := some views }.deliver
        (announced ++ h.announceFill broadcastId peer.id fill
          fun id => if id = peer.id then some peer else h.store.getPeer broadcastId id)

/-- Replaces a lost neighbor of each watcher in turn. -/
def refill (h : TrackerWebSocketHub) (broadcastId : BroadcastId) (peerId : PeerId) :
    List PeerId → NeighborViews → NeighborViews × Outgoing
  | [], views => (views, [])
  | watcher :: rest, views =>
      let (filled, fill) := views.fill broadcastId watcher
      let (final, out) := h.refill broadcastId peerId rest filled
      (final,
        h.sendToViewer broadcastId watcher (.peerLeft broadcastId peerId) ++
          h.announceFill broadcastId watcher fill (h.store.getPeer broadcastId) ++ out)

def peerLeft (h : TrackerWebSocketHub) (broadcastId : BroadcastId) (peerId : PeerId) :
    TrackerWebSocketHub :=
  -- a pending update could resurrect the inventory if the same ID rejoins
  let h := { h with pendingInventory := h.pendingInventory.modify broadcastId (·.delete peerId) }
  let announced := h.broadcast (.peerLeft broadcastId peerId)
  match h.neighborViews with
  | none => h.deliver announced
  | some views =>
      let (left, lost) := views.leave broadcastId peerId
      let (final, out) := h.refill broadcastId peerId lost left
      { h with neighborViews := some final }.deliver (announced ++ out)

/-! ## Inventory batches -/

def queueInventory (h : TrackerWebSocketHub) (message : InventoryMessage) :
    TrackerWebSocketHub :=
  let (updates, timers) :=
    match h.pendingInventory.get? message.broadcastId with
    | some updates => (updates, h.timers)
    | none => (∅, h.timers ++ [message.broadcastId])
  let merged := mergePending (updates.get? message.peerId) message
  { h with
    pendingInventory :=
      h.pendingInventory.set message.broadcastId (updates.set message.peerId merged)
    timers := timers }

/-- Sends an inventory update to legacy subscribers right away and merges it
into the next batch for the others. -/
def publishInventory (h : TrackerWebSocketHub) (message : InventoryMessage) :
    TrackerWebSocketHub :=
  match h.subscribersByBroadcast.get? message.broadcastId with
  | none => h
  | some subscribers =>
      let h := h.deliver (sendToAll subscribers.immediate message.toServerMessage)
      if subscribers.batched.size > 0 ∨ subscribers.viewers.size > 0 then h.queueInventory message
      else h

/-- The share of a flush that a viewer receives. -/
def viewerBatch (h : TrackerWebSocketHub) (broadcastId : BroadcastId)
    (updates : OrderedMap PeerId SegmentInventoryUpdate) (peerId : PeerId) : Outgoing :=
  match (h.subscribersByBroadcast.get? broadcastId).bind (fun s => s.viewers.get? peerId),
      h.neighborViews.bind (fun views => views.view broadcastId peerId) with
  | some sockets, some view =>
      let relevant :=
        if view.size < updates.size then view.toList.filterMap updates.get?
        else updates.values.filter fun update => decide (update.peerId ∈ view)
      sendBatch broadcastId relevant sockets
  | _, _ => []

/-- The broadcast's subscribers are still those of the flush. -/
def isCurrent (h : TrackerWebSocketHub) (broadcastId : BroadcastId) (job : FlushJob) : Bool :=
  decide ((h.subscribersByBroadcast.get? broadcastId).map BroadcastSubscribers.id
    = some job.subscribers)

/-- The end of this turn's slice. -/
def sliceEnd (h : TrackerWebSocketHub) (broadcastId : BroadcastId) (job : FlushJob) : ℕ :=
  if h.isCurrent broadcastId job then
    min (job.start + h.viewersPerFlushTurn) job.viewerIds.length
  else job.start

/-- One slice of a flush: its viewers are served; what remains is scheduled, or
the flush is over. -/
def sendSlice (h : TrackerWebSocketHub) (broadcastId : BroadcastId) (job : FlushJob) :
    TrackerWebSocketHub × Bool :=
  let stop := h.sliceEnd broadcastId job
  let served := (job.viewerIds.take stop).drop job.start
  let sent := h.deliver (served.flatMap (h.viewerBatch broadcastId job.updates))
  if h.isCurrent broadcastId job = true ∧ stop < job.viewerIds.length then
    ({ sent with immediates := sent.immediates.set broadcastId { job with start := stop } }, false)
  else
    ({ sent with flushing := sent.flushing.erase broadcastId }, true)

/-- `flushInventory` without what it runs once the flush it starts is over. -/
def startFlush (h : TrackerWebSocketHub) (broadcastId : BroadcastId) :
    TrackerWebSocketHub × Bool :=
  let batch := h.pendingInventory.get? broadcastId
  let h := { h with pendingInventory := h.pendingInventory.delete broadcastId }
  match batch, h.subscribersByBroadcast.get? broadcastId with
  | some pending, some subscribers =>
      if pending.size = 0 then (h, false)
      else
        let updates := toUpdates pending
        let h := h.deliver
          (if subscribers.batched.size > 0 then
            sendBatch broadcastId updates.values subscribers.batched
          else [])
        if subscribers.viewers.size = 0 then (h, false)
        else
          { h with flushing := h.flushing.insert broadcastId }.sendSlice broadcastId
            ⟨subscribers.id, updates, subscribers.viewers.keys, 0⟩
  | _, _ => (h, false)

/-- A flush that waited for the one that is over. The one it starts may be over
at once as well, but no third can wait: the request was just withdrawn. -/
def flushRequestedNext (h : TrackerWebSocketHub) (broadcastId : BroadcastId) :
    TrackerWebSocketHub :=
  if broadcastId ∈ h.flushRequested then
    ({ h with flushRequested := h.flushRequested.erase broadcastId }.startFlush broadcastId).1
  else h

/-- What `sendViewerBatches` does: a slice, and the waiting flush when over. -/
def sendViewerBatches (h : TrackerWebSocketHub) (broadcastId : BroadcastId) (job : FlushJob) :
    TrackerWebSocketHub :=
  let (h, ended) := h.sendSlice broadcastId job
  if ended then h.flushRequestedNext broadcastId else h

def flushInventory (h : TrackerWebSocketHub) (broadcastId : BroadcastId) : TrackerWebSocketHub :=
  if broadcastId ∈ h.flushing then
    -- keep batches in order: the next flush starts after this one finishes
    { h with flushRequested := h.flushRequested.insert broadcastId }
  else
    let (h, ended) := h.startFlush broadcastId
    if ended then h.flushRequestedNext broadcastId else h

end TrackerWebSocketHub

end OpenStreamGrid
