import OpenStreamGrid.Client.PeerDirectory
import OpenStreamGrid.Tracker.PlainMessages

/-!
# Two clients of one tracker

The Node `TrackerClient` and the browser's `WsTrackerClient` apply what they decode in
the same way, to peers that they keep as records of their own. Each of them
shows the directory of the messages it was sent, and so the two agree.
-/

namespace OpenStreamGrid

/-! ## What a client does with a message -/

/-- The broadcast of a client, and the peers it knows. -/
structure ClientState (τ : Type) where
  broadcastId : BroadcastId
  peers : OrderedMap PeerId (PeerRecord τ)

namespace ClientState

variable {τ : Type}

def new (broadcastId : BroadcastId) : ClientState τ := ⟨broadcastId, ∅⟩

/-- Change the inventory of a known peer. -/
def mapInventory (client : ClientState τ) (peerId : PeerId)
    (f : List SegmentId → List SegmentId) : ClientState τ :=
  match client.peers.get? peerId with
  | none => client
  | some peer =>
      { client with peers := client.peers.set peerId { peer with segments := f peer.segments } }

def replaceInventory (client : ClientState τ) (peerId : PeerId) (segments : List SegmentId) :
    ClientState τ :=
  client.mapInventory peerId fun _ => segments

def applyInventoryDelta (client : ClientState τ) (peerId : PeerId)
    (added removed : List SegmentId) : ClientState τ :=
  client.mapInventory peerId fun segments =>
    (((OrderedSet.ofList segments).eraseAll removed).insertAll added).toList

def applyUpdate (client : ClientState τ) : SegmentInventoryUpdate → ClientState τ
  | .replace peerId segments => client.replaceInventory peerId segments
  | .delta peerId added removed => client.applyInventoryDelta peerId added removed

/-- What both clients do with a message about their broadcast. -/
def applyMessage (client : ClientState τ) : PeerUpdateMessage τ → ClientState τ
  | .peerList _ peers =>
      { client with peers := peers.foldl (fun known peer => known.set peer.id peer) ∅ }
  | .peerJoined _ peer => { client with peers := client.peers.set peer.id peer }
  | .peerLeft _ peerId => { client with peers := client.peers.delete peerId }
  | .segmentAvailable _ peerId segments replace =>
      if replace then client.replaceInventory peerId segments
      else client.applyInventoryDelta peerId segments []
  | .segmentInventoryDelta _ peerId added removed =>
      client.applyInventoryDelta peerId added removed
  | .segmentInventoryBatch _ updates => updates.foldl applyUpdate client

/-- What a client says of a peer: its address, its metadata and its segments. -/
def known? (client : ClientState τ) (peerId : PeerId) :
    Option (PeerId × String × Option Metadata × List SegmentId) :=
  (client.peers.get? peerId).map fun peer => (peer.id, peer.address, peer.metadata, peer.segments)

end ClientState

namespace TrackerClient

/-- A text that is not decoded is only logged. -/
def handleMessage (client : ClientState String) (text : JsValue) : ClientState String :=
  match parsePeerUpdate text with
  | .error _ => client
  | .ok none => client
  | .ok (some message) =>
      if message.broadcastId ≠ client.broadcastId then client else client.applyMessage message

def handleMessages (client : ClientState String) (texts : List JsValue) : ClientState String :=
  texts.foldl handleMessage client

end TrackerClient

namespace WsTrackerClient

/-- Statistics and signals change nothing here; signals are passed on. -/
def handleMessage (client : ClientState (Option String)) (text : JsValue) :
    ClientState (Option String) :=
  match parseServerMessage text with
  | .error _ => client
  | .ok message =>
      if message.broadcastId ≠ client.broadcastId then client
      else
        match message with
        | .update message => client.applyMessage message
        | .statsUpdate _ _ _ => client
        | .webRtcSignal _ => client

def handleMessages (client : ClientState (Option String)) (texts : List JsValue) :
    ClientState (Option String) :=
  texts.foldl handleMessage client

end WsTrackerClient

/-! ## A client shows a directory -/

namespace ClientState

variable {τ : Type} {timestamp : String → τ} {client : ClientState τ} {d : PeerDirectory}

/-- The client keeps the records of the directory's peers. -/
structure Shows (timestamp : String → τ) (client : ClientState τ) (d : PeerDirectory) : Prop where
  broadcastId : client.broadcastId = d.broadcastId
  peers : ∀ p, client.peers.get? p = (d.peers.get? p).map (Peer.record timestamp)

theorem shows_new (b : BroadcastId) : Shows timestamp (new b) (.new b) where
  broadcastId := rfl
  peers _ := rfl

theorem Shows.set (h : Shows timestamp client d) (peer : Peer) :
    Shows timestamp { client with peers := client.peers.set peer.id (peer.record timestamp) }
      { d with peers := d.peers.set peer.id peer } where
  broadcastId := h.broadcastId
  peers p := by
    rw [OrderedMap.get?_set, OrderedMap.get?_set]
    split_ifs
    · rfl
    · exact h.peers p

theorem Shows.mapInventory (h : Shows timestamp client d) (peerId : PeerId)
    (f : List SegmentId → List SegmentId) :
    Shows timestamp (client.mapInventory peerId f) (d.mapInventory peerId f) := by
  have hget := h.peers peerId
  unfold ClientState.mapInventory PeerDirectory.mapInventory
  cases hpeer : d.peers.get? peerId with
  | none =>
      rw [hpeer] at hget
      rw [hget]
      exact h
  | some peer =>
      rw [hpeer, Option.map_some] at hget
      rw [hget]
      refine ⟨h.broadcastId, fun p => ?_⟩
      dsimp only
      rw [OrderedMap.get?_set, OrderedMap.get?_set]
      split_ifs
      · rfl
      · exact h.peers p

theorem Shows.replaceInventory (h : Shows timestamp client d) (peerId : PeerId)
    (segments : List SegmentId) :
    Shows timestamp (client.replaceInventory peerId segments)
      (d.replaceInventory peerId segments) :=
  h.mapInventory peerId fun _ => segments

theorem Shows.applyInventoryDelta (h : Shows timestamp client d) (peerId : PeerId)
    (added removed : List SegmentId) :
    Shows timestamp (client.applyInventoryDelta peerId added removed)
      (d.applyInventoryDelta peerId added removed) :=
  h.mapInventory peerId fun segments =>
    (((OrderedSet.ofList segments).eraseAll removed).insertAll added).toList

theorem Shows.applyUpdate (h : Shows timestamp client d) (update : SegmentInventoryUpdate) :
    Shows timestamp (client.applyUpdate update) (d.applyUpdate update) := by
  cases update with
  | delta peerId added removed => exact h.applyInventoryDelta peerId added removed
  | replace peerId segments => exact h.replaceInventory peerId segments

theorem Shows.applyUpdates (updates : List SegmentInventoryUpdate) :
    ∀ {client : ClientState τ} {d : PeerDirectory}, Shows timestamp client d →
      Shows timestamp (updates.foldl ClientState.applyUpdate client)
        (updates.foldl PeerDirectory.applyUpdate d) := by
  induction updates with
  | nil => exact fun h => h
  | cons update rest ih => exact fun h => ih (h.applyUpdate update)

/-- A list of peers is entered one after the other. -/
theorem get?_foldl_record (peers : List Peer) :
    ∀ {records : OrderedMap PeerId (PeerRecord τ)} {known : OrderedMap PeerId Peer},
      (∀ p, records.get? p = (known.get? p).map (Peer.record timestamp)) → ∀ p,
      ((peers.map (Peer.record timestamp)).foldl (fun known peer => known.set peer.id peer)
          records).get? p =
        ((peers.foldl (fun known peer => known.set peer.id peer) known).get? p).map
          (Peer.record timestamp) := by
  induction peers with
  | nil => exact fun h => h
  | cons peer rest ih =>
      intro records known h
      refine ih fun p => ?_
      show (records.set peer.id _).get? p = ((known.set peer.id peer).get? p).map _
      rw [OrderedMap.get?_set, OrderedMap.get?_set]
      split_ifs
      · rfl
      · exact h p

/-- **A client that applies what a message says** shows what the directory becomes. -/
theorem Shows.applyMessage (h : Shows timestamp client d) {message : WsServerMessage}
    (hb : message.broadcastId = d.broadcastId) :
    Shows timestamp (client.applyMessage (message.serialized timestamp))
      (d.handleMessage message) := by
  unfold PeerDirectory.handleMessage
  rw [if_neg (not_not.mpr hb)]
  cases message with
  | peerJoined b peer => exact h.set peer
  | peerLeft b peerId =>
      refine ⟨h.broadcastId, fun p => ?_⟩
      show (client.peers.delete peerId).get? p = ((d.peers.delete peerId).get? p).map _
      rw [OrderedMap.get?_delete, OrderedMap.get?_delete]
      split_ifs
      · rfl
      · exact h.peers p
  | segmentAvailable b peerId segments replace =>
      cases replace with
      | true => exact h.replaceInventory peerId segments
      | false => exact h.applyInventoryDelta peerId segments []
  | segmentInventoryDelta b peerId added removed =>
      exact h.applyInventoryDelta peerId added removed
  | segmentInventoryBatch b updates => exact Shows.applyUpdates updates h
  | peerList b peers => exact ⟨h.broadcastId, get?_foldl_record peers fun _ => rfl⟩

end ClientState

theorem WsServerMessage.serialized_broadcastId {τ : Type} (timestamp : String → τ)
    (message : WsServerMessage) :
    (message.serialized timestamp).broadcastId = message.broadcastId := by
  cases message <;> rfl

namespace ClientState

/-! ## The two clients -/

variable {d : PeerDirectory}

/-- A message about another broadcast leaves a client and the directory alone. -/
theorem Shows.message {τ : Type} {timestamp : String → τ} {client : ClientState τ}
    (h : Shows timestamp client d) (message : WsServerMessage) :
    Shows timestamp
      (if (message.serialized timestamp).broadcastId ≠ client.broadcastId then client
        else client.applyMessage (message.serialized timestamp))
      (d.handleMessage message) := by
  rw [message.serialized_broadcastId timestamp, h.broadcastId]
  by_cases hb : message.broadcastId = d.broadcastId
  · rw [if_neg (not_not.mpr hb)]
    exact h.applyMessage hb
  · unfold PeerDirectory.handleMessage
    rw [if_pos hb, if_pos hb]
    exact h

theorem shows_trackerClient (messages : List WsServerMessage) :
    ∀ {client : ClientState String} {d : PeerDirectory},
      (∀ message ∈ messages, message.Plain) → Shows id client d →
      Shows id (TrackerClient.handleMessages client (messages.map WsServerMessage.toJs))
        (d.handleMessages messages) := by
  induction messages with
  | nil => exact fun _ h => h
  | cons message rest ih =>
      intro client d hplain h
      have hdecoded := TrackerClient.parsePeerUpdate_toJs (hplain message List.mem_cons_self)
      apply ih fun m hm => hplain m (List.mem_cons_of_mem message hm)
      unfold TrackerClient.handleMessage
      rw [hdecoded]
      exact h.message message

theorem shows_wsTrackerClient (messages : List WsServerMessage) :
    ∀ {client : ClientState (Option String)} {d : PeerDirectory},
      (∀ message ∈ messages, message.Plain) → Shows some client d →
      Shows some (WsTrackerClient.handleMessages client (messages.map WsServerMessage.toJs))
        (d.handleMessages messages) := by
  induction messages with
  | nil => exact fun _ h => h
  | cons message rest ih =>
      intro client d hplain h
      have hdecoded := WsTrackerClient.parseServerMessage_toJs (hplain message List.mem_cons_self)
      apply ih fun m hm => hplain m (List.mem_cons_of_mem message hm)
      unfold WsTrackerClient.handleMessage
      rw [hdecoded]
      exact h.message message

/-- What a client says of a peer is what the directory says. -/
theorem Shows.known? {τ : Type} {timestamp : String → τ} {client : ClientState τ}
    (h : Shows timestamp client d) (p : PeerId) : client.known? p =
      (d.peers.get? p).map fun peer => (peer.id, peer.address, peer.metadata, peer.segments) := by
  unfold ClientState.known?
  rw [h.peers, Option.map_map]
  rfl

end ClientState

/-! ## Agreement -/

/-- A message that some tracker sends in its lifetime. -/
def WsServerMessage.Sendable (parseUrl : String → Option AddressUrl) (message : WsServerMessage) :
    Prop :=
  ∃ h, TrackerWebSocketHub.lifetime.Reachable (TrackerWebSocketHub.ReadJoins parseUrl) h ∧
    ∃ s socket, h.sockets.get? s = some socket ∧ message ∈ socket.sent

/-- **A message means the same to both clients**: both parsers decode what the tracker serialized,
and after any messages, about their broadcast or others, both know the same of every peer. -/
theorem messages_mean_the_same (parseUrl : String → Option AddressUrl) :
    (∀ message : WsServerMessage, message.Sendable parseUrl → message.Plain) ∧
    (∀ message : WsServerMessage, message.Plain →
      TrackerClient.parsePeerUpdate message.toJs = .ok (some (message.serialized id)) ∧
      WsTrackerClient.parseServerMessage message.toJs =
        .ok (.update (message.serialized some))) ∧
    ∀ (b : BroadcastId) (messages : List WsServerMessage),
      (∀ message ∈ messages, message.Plain) → ∀ p,
      (TrackerClient.handleMessages (.new b) (messages.map WsServerMessage.toJs)).known? p =
        (WsTrackerClient.handleMessages (.new b) (messages.map WsServerMessage.toJs)).known? p := by
  refine ⟨?_, fun message hplain => ?_, fun b messages hplain p => ?_⟩
  · rintro message ⟨h, hr, s, socket, hget, hmem⟩
    exact (TrackerWebSocketHub.readable hr).sent s socket hget message hmem
  · exact ⟨TrackerClient.parsePeerUpdate_toJs hplain,
      WsTrackerClient.parseServerMessage_toJs hplain⟩
  · have hnode := ClientState.shows_trackerClient messages hplain (ClientState.shows_new b)
    have hbrowser := ClientState.shows_wsTrackerClient messages hplain (ClientState.shows_new b)
    rw [hnode.known?, hbrowser.known?]

/-! ## One viewer -/

/-- The URL constructor, on one address. -/
def singleAddress (address : String) : Option AddressUrl :=
  if address = "webrtc://viewer-1" then some ⟨"webrtc:", "", "", "viewer-1", "", "", ""⟩ else none

def namedViewer : JsonObject :=
  [("id", .string "viewer-1"), ("address", .string "webrtc://viewer-1"),
    ("metadata", .record [("name", .string "Ann"), ("__proto__", .string "lost")])]

def namedJoin : PeerJoinRequest :=
  ⟨"viewer-1", "webrtc://viewer-1", none, some ⟨[("name", "Ann")], by decide⟩⟩

/-- It joins and subscribes, and reports over HTTP. -/
def namedVisit : List TrackerWebSocketHub.TrackerEvent :=
  [.hub (.registerBroadcast 0 ⟨"live", "https://origin/live.m3u8", none⟩),
    .hub (.joinPeer 0 "live" namedJoin ⟨none⟩), .hub (.connected 0 ⟨"live", "viewer-1"⟩),
    .hub (.received 0 true 0 (.subscribe "live" "viewer-1" none)),
    .postSegments true 0 "live" "viewer-1" ⟨["a.ts"], none⟩]

/-- What its socket is sent. -/
def namedMessages : List WsServerMessage :=
  [.peerList "live" [joinedPeer namedJoin none 0],
    .segmentAvailable "live" "viewer-1" ["a.ts"] true]

theorem sendable_namedMessages : ∀ message ∈ namedMessages, message.Sendable singleAddress := by
  intro message hmem
  have hlog : ((TrackerWebSocketHub.lifetime.run TrackerWebSocketHub.start namedVisit).bind
      fun h => (h.sockets.get? 0).map Socket.sent) = some namedMessages := by decide +kernel
  obtain ⟨h, hrun, hlog⟩ := Option.bind_eq_some_iff.mp hlog
  obtain ⟨socket, hget, hsent⟩ := Option.map_eq_some_iff.mp hlog
  have hread : readJoin singleAddress namedViewer = .ok namedJoin := by decide +kernel
  have hok : TrackerWebSocketHub.lifetime.RunOk (TrackerWebSocketHub.ReadJoins singleAddress)
      TrackerWebSocketHub.start namedVisit :=
    ⟨trivial, fun _ _ => ⟨⟨namedViewer, hread⟩, fun _ _ => ⟨trivial, fun _ _ => ⟨trivial,
      fun _ _ => ⟨trivial, fun _ _ => trivial⟩⟩⟩⟩⟩
  have hinit : TrackerWebSocketHub.lifetime.init TrackerWebSocketHub.start := ⟨1, 4, _, 10, rfl⟩
  have hr := (TransitionSystem.Reachable.init hinit).append_run hok hrun
  exact ⟨h, hr, 0, socket, hget, hsent ▸ hmem⟩

theorem messages_mean_the_same_viewer :
    (∀ message ∈ namedMessages,
      TrackerClient.parsePeerUpdate message.toJs = .ok (some (message.serialized id))) ∧
    (WsTrackerClient.handleMessages (.new "live")
        (namedMessages.map WsServerMessage.toJs)).known? "viewer-1" =
      some ("viewer-1", "webrtc://viewer-1", namedJoin.metadata, ["a.ts"]) := by
  obtain ⟨hplain, hdecoded, hagree⟩ := messages_mean_the_same singleAddress
  have hall : ∀ message ∈ namedMessages, message.Plain := fun message hmem =>
    hplain message (sendable_namedMessages message hmem)
  refine ⟨fun message hmem => (hdecoded message (hall message hmem)).1, ?_⟩
  rw [← hagree "live" namedMessages hall "viewer-1"]
  decide +kernel

end OpenStreamGrid
