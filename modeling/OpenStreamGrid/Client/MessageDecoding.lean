import OpenStreamGrid.Client.TrackerMessages

/-!
# Both clients decode what the tracker encoded

Field by field: a parser finds in the text of a peer, an update or a message the value
it was written from. Metadata may have any key but `__proto__`, which no parser keeps.
-/

namespace OpenStreamGrid

/-! ## Lists -/

theorem strings?_stringsToJs (xs : List String) : (stringsToJs xs).strings? = some xs := by
  show (xs.map JsValue.string).mapM JsValue.string? = some xs
  induction xs with
  | nil => rfl
  | cons x xs ih =>
      rw [List.map_cons, List.mapM_cons, ih]
      rfl

/-- A list whose elements are all decoded is decoded. -/
theorem mapM_map_ok {α β : Type} {encode : α → JsValue} {parse : JsValue → Except String β}
    {value : α → β} {xs : List α} (h : ∀ x ∈ xs, parse (encode x) = .ok (value x)) :
    (xs.map encode).mapM parse = .ok (xs.map value) := by
  induction xs with
  | nil => rfl
  | cons x xs ih =>
      rw [List.map_cons, List.mapM_cons, h x List.mem_cons_self,
        ih fun y hy => h y (List.mem_cons_of_mem x hy)]
      rfl

/-! ## Metadata -/

/-- The metadata has no entry that an assignment would lose. -/
def Metadata.Plain (metadata : Metadata) : Prop := "__proto__" ∉ metadata

theorem foldlM_addMetadataItem : ∀ (es : List (String × String)) (metadata : Metadata),
    ((metadata.entries ++ es).map Prod.fst).Nodup → "__proto__" ∉ es.map Prod.fst →
    ∃ read : Metadata, read.entries = metadata.entries ++ es ∧
      (es.map fun entry => (entry.1, JsValue.string entry.2)).foldlM addMetadataItem metadata =
        .ok read
  | [], metadata, _, _ => ⟨metadata, (List.append_nil _).symm, rfl⟩
  | (key, item) :: rest, metadata, hnodup, hplain => by
      have hkey : key ≠ "__proto__" := fun heq => hplain (heq ▸ List.mem_cons_self)
      have hfresh : key ∉ metadata.entries.map Prod.fst := by
        intro hmem
        rw [List.map_append] at hnodup
        exact (List.nodup_append.mp hnodup).2.2 key hmem key List.mem_cons_self rfl
      have hset : (metadata.set key item).entries = metadata.entries ++ [(key, item)] :=
        OrderedMap.setEntry_of_not_mem hfresh
      have happend : (metadata.set key item).entries ++ rest =
          metadata.entries ++ (key, item) :: rest := by
        rw [hset, List.append_assoc]
        rfl
      obtain ⟨read, hentries, hread⟩ := foldlM_addMetadataItem rest (metadata.set key item)
        (happend ▸ hnodup) fun hmem => hplain (List.mem_cons_of_mem key hmem)
      refine ⟨read, hentries.trans happend, ?_⟩
      rw [List.map_cons, List.foldlM_cons]
      show (addMetadataItem metadata (key, .string item)).bind _ = _
      have hitem : addMetadataItem metadata (key, .string item) = .ok (metadata.set key item) :=
        congrArg Except.ok (if_neg hkey)
      rw [hitem]
      exact hread

theorem parseMetadata_toJs {metadata : Metadata} (hplain : metadata.Plain) :
    parseMetadata metadata.toJs = .ok (some metadata) := by
  obtain ⟨read, hentries, hread⟩ := foldlM_addMetadataItem metadata.entries ∅
    metadata.nodupKeys hplain
  have hsame : read = metadata := OrderedMap.ext hentries
  show (List.foldlM addMetadataItem ∅ _).map some = _
  rw [hread, hsame]
  rfl

/-! ## Peers -/

def Peer.Plain (peer : Peer) : Prop := ∀ metadata, peer.metadata = some metadata → metadata.Plain

/-- The peer as it is sent, with its timestamps as a client keeps them. -/
def Peer.record {τ : Type} (timestamp : String → τ) (peer : Peer) : PeerRecord τ where
  id := peer.id
  address := peer.address
  segments := peer.segments
  joinedAt := timestamp (IsoTime.toISOString peer.joinedAt)
  lastSeenAt := timestamp (IsoTime.toISOString peer.lastSeenAt)
  latencyMs := peer.latencyMs
  successRate := peer.successRate
  trustScore := peer.trustScore
  uploadBandwidthBps := peer.uploadBandwidthBps.map fun bps => (bps : ℚ)
  metadata := peer.metadata

namespace Peer

variable (peer : Peer)

theorem get_toJs (name : String) : peer.toJs.get name =
    ((peer.jsonFields.find? (·.1 = name)).bind Prod.snd).getD .undefined := by
  apply JsValue.get_ofFields
  show ["id", "address", "uploadBandwidthBps", "metadata", "segments", "joinedAt", "lastSeenAt",
    "latencyMs", "successRate", "trustScore"].Nodup
  decide

theorem get_toJs_id : peer.toJs.get "id" = .string peer.id := peer.get_toJs "id"

theorem get_toJs_address : peer.toJs.get "address" = .string peer.address := peer.get_toJs "address"

theorem get_toJs_segments : peer.toJs.get "segments" = stringsToJs peer.segments :=
  peer.get_toJs "segments"

theorem get_toJs_joinedAt :
    peer.toJs.get "joinedAt" = .string (IsoTime.toISOString peer.joinedAt) :=
  peer.get_toJs "joinedAt"

theorem get_toJs_lastSeenAt :
    peer.toJs.get "lastSeenAt" = .string (IsoTime.toISOString peer.lastSeenAt) :=
  peer.get_toJs "lastSeenAt"

theorem get_toJs_latencyMs :
    peer.toJs.get "latencyMs" = .number (.finite peer.latencyMs) :=
  peer.get_toJs "latencyMs"

theorem get_toJs_successRate :
    peer.toJs.get "successRate" = .number (.finite peer.successRate) :=
  peer.get_toJs "successRate"

theorem get_toJs_trustScore :
    peer.toJs.get "trustScore" = .number (.finite peer.trustScore) :=
  peer.get_toJs "trustScore"

theorem parseUploadBandwidth_toJs : parseUploadBandwidth (peer.toJs.get "uploadBandwidthBps") =
    .ok (peer.uploadBandwidthBps.map fun bps => (bps : ℚ)) := by
  have hget : peer.toJs.get "uploadBandwidthBps" =
      (peer.uploadBandwidthBps.map fun bps => JsValue.number (.finite bps)).getD .undefined :=
    peer.get_toJs "uploadBandwidthBps"
  rw [hget]
  cases peer.uploadBandwidthBps with
  | none => rfl
  | some bps => rfl

theorem parseMetadata_get_toJs (hplain : peer.Plain) :
    parseMetadata (peer.toJs.get "metadata") = .ok peer.metadata := by
  have hget : peer.toJs.get "metadata" = (peer.metadata.map Metadata.toJs).getD .undefined :=
    peer.get_toJs "metadata"
  rw [hget]
  cases hmetadata : peer.metadata with
  | none => rfl
  | some metadata => exact parseMetadata_toJs (hplain metadata hmetadata)

end Peer

theorem TrackerClient.parsePeer_toJs {peer : Peer} (hplain : peer.Plain) :
    TrackerClient.parsePeer peer.toJs = .ok (peer.record id) := by
  have hrequired : TrackerClient.requiredFields? peer.toJs =
      some fun uploadBandwidthBps metadata =>
        ⟨peer.id, peer.address, peer.segments, IsoTime.toISOString peer.joinedAt,
          IsoTime.toISOString peer.lastSeenAt, peer.latencyMs, peer.successRate, peer.trustScore,
          uploadBandwidthBps, metadata⟩ := by
    unfold TrackerClient.requiredFields?
    rw [peer.get_toJs_id, peer.get_toJs_address, peer.get_toJs_segments, peer.get_toJs_joinedAt,
      peer.get_toJs_lastSeenAt, peer.get_toJs_latencyMs, peer.get_toJs_successRate,
      peer.get_toJs_trustScore, strings?_stringsToJs]
    rfl
  have hobject : peer.toJs.isObject = true := rfl
  unfold TrackerClient.parsePeer
  rw [if_neg (not_not.mpr hobject), hrequired, peer.parseUploadBandwidth_toJs,
    peer.parseMetadata_get_toJs hplain]
  rfl

theorem WsTrackerClient.parsePeer_toJs {peer : Peer} (hplain : peer.Plain) :
    WsTrackerClient.parsePeer peer.toJs = .ok (peer.record some) := by
  have hrequired : WsTrackerClient.requiredFields? peer.toJs =
      some fun uploadBandwidthBps metadata joinedAt lastSeenAt =>
        ⟨peer.id, peer.address, peer.segments, joinedAt, lastSeenAt, peer.latencyMs,
          peer.successRate, peer.trustScore, uploadBandwidthBps, metadata⟩ := by
    unfold WsTrackerClient.requiredFields?
    rw [peer.get_toJs_id, peer.get_toJs_address, peer.get_toJs_segments, peer.get_toJs_latencyMs,
      peer.get_toJs_successRate, peer.get_toJs_trustScore, strings?_stringsToJs]
    rfl
  have hobject : peer.toJs.isObject = true := rfl
  unfold WsTrackerClient.parsePeer
  rw [if_neg (not_not.mpr hobject), hrequired, peer.parseUploadBandwidth_toJs,
    peer.parseMetadata_get_toJs hplain, peer.get_toJs_joinedAt, peer.get_toJs_lastSeenAt]
  rfl

/-! ## Inventory updates -/

theorem SegmentInventoryUpdate.get_toJs (update : SegmentInventoryUpdate) (name : String) :
    update.toJs.get name =
      ((update.jsonFields.find? (·.1 = name)).bind Prod.snd).getD .undefined := by
  apply JsValue.get_ofFields
  cases update with
  | delta peerId added removed =>
      show ["peerId", "added", "removed"].Nodup
      decide
  | replace peerId segments =>
      show ["peerId", "segments", "replace"].Nodup
      decide

theorem parseInventoryUpdate_toJs (invalid : String) (update : SegmentInventoryUpdate) :
    parseInventoryUpdate invalid update.toJs = .ok update := by
  unfold parseInventoryUpdate
  cases update with
  | delta peerId added removed =>
      have hpeer : (SegmentInventoryUpdate.delta peerId added removed).toJs.get "peerId" =
          .string peerId := SegmentInventoryUpdate.get_toJs _ "peerId"
      have hreplace : (SegmentInventoryUpdate.delta peerId added removed).toJs.get "replace" =
          .undefined := SegmentInventoryUpdate.get_toJs _ "replace"
      have hadded : (SegmentInventoryUpdate.delta peerId added removed).toJs.get "added" =
          stringsToJs added := SegmentInventoryUpdate.get_toJs _ "added"
      have hremoved : (SegmentInventoryUpdate.delta peerId added removed).toJs.get "removed" =
          stringsToJs removed := SegmentInventoryUpdate.get_toJs _ "removed"
      rw [hpeer, hreplace, hadded, hremoved, strings?_stringsToJs, strings?_stringsToJs]
      rfl
  | replace peerId segments =>
      have hpeer : (SegmentInventoryUpdate.replace peerId segments).toJs.get "peerId" =
          .string peerId := SegmentInventoryUpdate.get_toJs _ "peerId"
      have hreplace : (SegmentInventoryUpdate.replace peerId segments).toJs.get "replace" =
          .boolean true := SegmentInventoryUpdate.get_toJs _ "replace"
      have hsegments : (SegmentInventoryUpdate.replace peerId segments).toJs.get "segments" =
          stringsToJs segments := SegmentInventoryUpdate.get_toJs _ "segments"
      rw [hpeer, hreplace, hsegments, strings?_stringsToJs]
      rfl

/-! ## Messages -/

namespace WsServerMessage

/-- The peers a message carries. -/
def peers : WsServerMessage → List Peer
  | .peerJoined _ peer => [peer]
  | .peerList _ peers => peers
  | _ => []

/-- No peer a message carries has metadata that its reader would lose. -/
def Plain (message : WsServerMessage) : Prop := ∀ peer ∈ message.peers, peer.Plain

/-- The value the tracker serialized, as a client keeps it. -/
def serialized {τ : Type} (timestamp : String → τ) : WsServerMessage → PeerUpdateMessage τ
  | .peerJoined broadcastId peer => .peerJoined broadcastId (peer.record timestamp)
  | .peerLeft broadcastId peerId => .peerLeft broadcastId peerId
  | .segmentAvailable broadcastId peerId segments replace =>
      .segmentAvailable broadcastId peerId segments replace
  | .segmentInventoryDelta broadcastId peerId added removed =>
      .segmentInventoryDelta broadcastId peerId added removed
  | .segmentInventoryBatch broadcastId updates => .segmentInventoryBatch broadcastId updates
  | .peerList broadcastId peers => .peerList broadcastId (peers.map (Peer.record timestamp))

variable (message : WsServerMessage)

theorem get_toJs (name : String) : message.toJs.get name =
    ((message.jsonFields.find? (·.1 = name)).bind Prod.snd).getD .undefined := by
  apply JsValue.get_ofFields
  cases message with
  | peerJoined broadcastId peer =>
      show ["type", "broadcastId", "peer"].Nodup
      decide
  | peerLeft broadcastId peerId =>
      show ["type", "broadcastId", "peerId"].Nodup
      decide
  | segmentAvailable broadcastId peerId segments replace =>
      show ["type", "broadcastId", "peerId", "segments", "replace"].Nodup
      decide
  | segmentInventoryDelta broadcastId peerId added removed =>
      show ["type", "broadcastId", "peerId", "added", "removed"].Nodup
      decide
  | segmentInventoryBatch broadcastId updates =>
      show ["type", "broadcastId", "updates"].Nodup
      decide
  | peerList broadcastId peers =>
      show ["type", "broadcastId", "peers"].Nodup
      decide

theorem get_toJs_type : message.toJs.get "type" = .string message.type := message.get_toJs "type"

theorem get_toJs_broadcastId : message.toJs.get "broadcastId" = .string message.broadcastId :=
  message.get_toJs "broadcastId"

/-- **What both parsers share reads a message back**, where the peers it carries are read back. -/
theorem parseUpdateMessage_toJs {τ : Type} {timestamp : String → τ} {errors : ParserErrors}
    {parsePeer : JsValue → Except String (PeerRecord τ)}
    (hpeers : ∀ peer ∈ message.peers, parsePeer peer.toJs = .ok (peer.record timestamp)) :
    parseUpdateMessage errors parsePeer message.type message.broadcastId message.toJs =
      .ok (some (message.serialized timestamp)) := by
  unfold parseUpdateMessage
  cases message with
  | peerJoined broadcastId peer =>
      have hget : (peerJoined broadcastId peer).toJs.get "peer" = peer.toJs := get_toJs _ "peer"
      rw [hget, hpeers peer List.mem_cons_self]
      rfl
  | peerLeft broadcastId peerId =>
      have hget : (peerLeft broadcastId peerId).toJs.get "peerId" = .string peerId :=
        get_toJs _ "peerId"
      rw [hget]
      rfl
  | segmentAvailable broadcastId peerId segments replace =>
      have hpeer : (segmentAvailable broadcastId peerId segments replace).toJs.get "peerId" =
          .string peerId := get_toJs _ "peerId"
      have hsegments : (segmentAvailable broadcastId peerId segments replace).toJs.get "segments" =
          stringsToJs segments := get_toJs _ "segments"
      have hreplace : (segmentAvailable broadcastId peerId segments replace).toJs.get "replace" =
          (if replace then some (JsValue.boolean true) else none).getD .undefined :=
        get_toJs _ "replace"
      rw [hpeer, hsegments, strings?_stringsToJs, hreplace]
      cases replace <;> rfl
  | segmentInventoryDelta broadcastId peerId added removed =>
      have hpeer : (segmentInventoryDelta broadcastId peerId added removed).toJs.get "peerId" =
          .string peerId := get_toJs _ "peerId"
      have hadded : (segmentInventoryDelta broadcastId peerId added removed).toJs.get "added" =
          stringsToJs added := get_toJs _ "added"
      have hremoved : (segmentInventoryDelta broadcastId peerId added removed).toJs.get "removed" =
          stringsToJs removed := get_toJs _ "removed"
      rw [hpeer, hadded, hremoved, strings?_stringsToJs, strings?_stringsToJs]
      rfl
  | segmentInventoryBatch broadcastId updates =>
      have hget : (segmentInventoryBatch broadcastId updates).toJs.get "updates" =
          .array (updates.map SegmentInventoryUpdate.toJs) := get_toJs _ "updates"
      have hupdates : (updates.map SegmentInventoryUpdate.toJs).mapM
          (parseInventoryUpdate errors.update) = .ok (updates.map id) :=
        mapM_map_ok fun update _ => parseInventoryUpdate_toJs errors.update update
      rw [hget]
      show ((updates.map SegmentInventoryUpdate.toJs).mapM
          (parseInventoryUpdate errors.update)).map _ = _
      rw [hupdates, List.map_id]
      rfl
  | peerList broadcastId peers =>
      have hget : (peerList broadcastId peers).toJs.get "peers" =
          .array (peers.map Peer.toJs) := get_toJs _ "peers"
      have hparsed : (peers.map Peer.toJs).mapM parsePeer =
          .ok (peers.map (Peer.record timestamp)) := mapM_map_ok hpeers
      rw [hget]
      show ((peers.map Peer.toJs).mapM parsePeer).map _ = _
      rw [hparsed]
      rfl

end WsServerMessage

/-- **The Node parser decodes a message** to the value the tracker serialized. -/
theorem TrackerClient.parsePeerUpdate_toJs {message : WsServerMessage} (hplain : message.Plain) :
    TrackerClient.parsePeerUpdate message.toJs = .ok (some (message.serialized id)) := by
  unfold TrackerClient.parsePeerUpdate
  rw [message.get_toJs_type, message.get_toJs_broadcastId]
  exact message.parseUpdateMessage_toJs fun peer hmem => TrackerClient.parsePeer_toJs
    (hplain peer hmem)

/-- **The browser's parser decodes a message** to the same value. -/
theorem WsTrackerClient.parseServerMessage_toJs {message : WsServerMessage}
    (hplain : message.Plain) :
    WsTrackerClient.parseServerMessage message.toJs = .ok (.update (message.serialized some)) := by
  have hupdate : parseUpdateMessage WsTrackerClient.parserErrors WsTrackerClient.parsePeer
      message.type message.broadcastId message.toJs = .ok (some (message.serialized some)) :=
    message.parseUpdateMessage_toJs fun peer hmem => WsTrackerClient.parsePeer_toJs
      (hplain peer hmem)
  unfold WsTrackerClient.parseServerMessage
  rw [message.get_toJs_type, message.get_toJs_broadcastId]
  show (parseUpdateMessage WsTrackerClient.parserErrors WsTrackerClient.parsePeer
      message.type message.broadcastId message.toJs).bind _ = _
  rw [hupdate]
  rfl

end OpenStreamGrid
