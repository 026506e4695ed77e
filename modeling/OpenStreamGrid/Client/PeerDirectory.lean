import OpenStreamGrid.Common.Types
import OpenStreamGrid.Lib.Overwrite

/-!
# The peer directory of a client

What the Node `TrackerClient` and the browser `WsTrackerClient` keep of the
audience: a map from peer ID to peer, changed by the tracker's messages in the
order they arrive. The two clients handle these messages alike; the browser's
callbacks do not touch the map.
-/

namespace OpenStreamGrid

/-- The peers a client of one broadcast knows. -/
structure PeerDirectory where
  broadcastId : BroadcastId
  peers : OrderedMap PeerId Peer
deriving DecidableEq

namespace PeerDirectory

/-- A client that was told nothing yet. -/
def new (broadcastId : BroadcastId) : PeerDirectory := ⟨broadcastId, ∅⟩

/-- Change the inventory of a known peer. -/
def mapInventory (d : PeerDirectory) (peerId : PeerId) (f : List SegmentId → List SegmentId) :
    PeerDirectory :=
  match d.peers.get? peerId with
  | none => d
  | some peer => { d with peers := d.peers.set peerId { peer with segments := f peer.segments } }

def replaceInventory (d : PeerDirectory) (peerId : PeerId) (segments : List SegmentId) :
    PeerDirectory :=
  d.mapInventory peerId fun _ => segments

def applyInventoryDelta (d : PeerDirectory) (peerId : PeerId) (added removed : List SegmentId) :
    PeerDirectory :=
  d.mapInventory peerId fun segments =>
    (((OrderedSet.ofList segments).eraseAll removed).insertAll added).toList

def applyUpdate (d : PeerDirectory) : SegmentInventoryUpdate → PeerDirectory
  | .replace peerId segments => d.replaceInventory peerId segments
  | .delta peerId added removed => d.applyInventoryDelta peerId added removed

def handleMessage (d : PeerDirectory) (message : WsServerMessage) : PeerDirectory :=
  if message.broadcastId ≠ d.broadcastId then d
  else
    match message with
    | .peerList _ peers =>
        { d with peers := peers.foldl (fun known peer => known.set peer.id peer) ∅ }
    | .peerJoined _ peer => { d with peers := d.peers.set peer.id peer }
    | .peerLeft _ peerId => { d with peers := d.peers.delete peerId }
    | .segmentAvailable _ peerId segments replace =>
        if replace then d.replaceInventory peerId segments
        else d.applyInventoryDelta peerId segments []
    | .segmentInventoryDelta _ peerId added removed => d.applyInventoryDelta peerId added removed
    | .segmentInventoryBatch _ updates => updates.foldl applyUpdate d

/-- The messages a socket delivered, in order. -/
def handleMessages (d : PeerDirectory) (messages : List WsServerMessage) : PeerDirectory :=
  messages.foldl handleMessage d

/-- The copy the client holds of a peer's inventory. -/
def inventory? (d : PeerDirectory) (peerId : PeerId) : Option (List SegmentId) :=
  (d.peers.get? peerId).map Peer.segments

/-- The copy as a set; nothing is known of an unknown peer. -/
def inventory (d : PeerDirectory) (peerId : PeerId) : Set SegmentId :=
  {x | x ∈ (d.inventory? peerId).getD []}

instance (d : PeerDirectory) (peerId : PeerId) (x : SegmentId) :
    Decidable (x ∈ d.inventory peerId) :=
  inferInstanceAs (Decidable (x ∈ (d.inventory? peerId).getD []))

/-- The copy shows the peer as it is stored. -/
def HoldsCopyOf (d : PeerDirectory) (peerId : PeerId) (stored : Peer) : Prop :=
  peerId ∈ d.peers ∧ d.inventory peerId = {x | x ∈ stored.segments}

/-! ## Inventory updates as overwrites -/

end PeerDirectory

/-- What an update says of the inventory of `peerId`. -/
def SegmentInventoryUpdate.effect (peerId : PeerId) :
    SegmentInventoryUpdate → Overwrite SegmentId
  | .delta p added removed => if p = peerId then .delta added removed else .keep
  | .replace p segments => if p = peerId then .replace segments else .keep

/-- What a report's message says of the inventory of its peer. -/
def InventoryMessage.effect : InventoryMessage → Overwrite SegmentId
  | .segmentAvailable _ _ segments true => .replace segments
  | .segmentAvailable _ _ segments false => .delta segments []
  | .segmentInventoryDelta _ _ added removed => .delta added removed

/-- What a batch of updates, taken in order, says of the inventory of `peerId`. -/
def batchEffect (updates : List SegmentInventoryUpdate) (peerId : PeerId) :
    Overwrite SegmentId :=
  updates.foldl (fun (o : Overwrite SegmentId) u => o.andThen (u.effect peerId)) Overwrite.keep

namespace PeerDirectory

theorem mem_mapInventory {d : PeerDirectory} {p q : PeerId}
    {f : List SegmentId → List SegmentId} :
    q ∈ (d.mapInventory p f).peers ↔ q ∈ d.peers := by
  unfold mapInventory
  cases h : d.peers.get? p with
  | none => rfl
  | some peer =>
      rw [OrderedMap.mem_set]
      constructor
      · rintro (hq | rfl)
        · exact hq
        · exact OrderedMap.mem_of_get? h
      · exact Or.inl

@[simp] theorem mapInventory_broadcastId (d : PeerDirectory) (p : PeerId)
    (f : List SegmentId → List SegmentId) :
    (d.mapInventory p f).broadcastId = d.broadcastId := by
  unfold mapInventory
  cases d.peers.get? p <;> rfl

theorem inventory?_mapInventory (d : PeerDirectory) (p q : PeerId)
    (f : List SegmentId → List SegmentId) :
    (d.mapInventory p f).inventory? q
      = if q = p then (d.inventory? p).map f else d.inventory? q := by
  unfold mapInventory inventory?
  cases h : d.peers.get? p with
  | none =>
      by_cases hq : q = p
      · simp [hq, h]
      · simp [hq]
  | some peer =>
      by_cases hq : q = p
      · simp [hq]
      · simp [hq]

@[simp] theorem applyUpdate_broadcastId (d : PeerDirectory) (u : SegmentInventoryUpdate) :
    (d.applyUpdate u).broadcastId = d.broadcastId := by
  cases u <;> exact mapInventory_broadcastId ..

theorem mem_applyUpdate {d : PeerDirectory} {u : SegmentInventoryUpdate} {p : PeerId} :
    p ∈ (d.applyUpdate u).peers ↔ p ∈ d.peers := by
  cases u <;> exact mem_mapInventory

theorem mem_iff_inventory?_isSome {d : PeerDirectory} {p : PeerId} :
    p ∈ d.peers ↔ (d.inventory? p).isSome := by
  rw [OrderedMap.mem_iff_isSome, inventory?, Option.isSome_map]

/-- **An update overwrites the copy** of a known peer's inventory. -/
theorem inventory_applyUpdate {d : PeerDirectory} {u : SegmentInventoryUpdate} {p : PeerId}
    (hp : p ∈ d.peers) :
    (d.applyUpdate u).inventory p = (u.effect p).apply (d.inventory p) := by
  obtain ⟨segments, hs⟩ := Option.isSome_iff_exists.mp (mem_iff_inventory?_isSome.mp hp)
  have hold : d.inventory p = {x | x ∈ segments} := by
    ext x
    simp [inventory, hs]
  rw [hold]
  ext x
  cases u with
  | delta q added removed =>
      unfold applyUpdate applyInventoryDelta inventory
      rw [inventory?_mapInventory]
      by_cases hq : q = p
      · subst hq
        simp [SegmentInventoryUpdate.effect, hs]
      · simp [SegmentInventoryUpdate.effect, hq, Ne.symm hq, hs]
  | replace q elements =>
      unfold applyUpdate replaceInventory inventory
      rw [inventory?_mapInventory]
      by_cases hq : q = p
      · subst hq
        simp [SegmentInventoryUpdate.effect, hs]
      · simp [SegmentInventoryUpdate.effect, hq, Ne.symm hq, hs]

/-- A report's message, delivered on its own, acts as the update it stands for. -/
theorem handleMessage_inventoryMessage {d : PeerDirectory} {m : InventoryMessage}
    (hb : m.broadcastId = d.broadcastId) :
    ∃ u : SegmentInventoryUpdate, d.handleMessage m.toServerMessage = d.applyUpdate u ∧
      ∀ p, u.effect p = if m.peerId = p then m.effect else Overwrite.keep := by
  cases m with
  | segmentAvailable b q segments replace =>
      have hb' : b = d.broadcastId := hb
      cases replace with
      | true =>
          refine ⟨.replace q segments, ?_, fun p => rfl⟩
          simp [handleMessage, InventoryMessage.toServerMessage, WsServerMessage.broadcastId, hb',
            applyUpdate]
      | false =>
          refine ⟨.delta q segments [], ?_, fun p => rfl⟩
          simp [handleMessage, InventoryMessage.toServerMessage, WsServerMessage.broadcastId, hb',
            applyUpdate]
  | segmentInventoryDelta b q added removed =>
      have hb' : b = d.broadcastId := hb
      refine ⟨.delta q added removed, ?_, fun p => rfl⟩
      simp [handleMessage, InventoryMessage.toServerMessage, WsServerMessage.broadcastId, hb',
        applyUpdate]

theorem inventory_handleMessage_inventoryMessage {d : PeerDirectory} {m : InventoryMessage}
    (hb : m.broadcastId = d.broadcastId) (hp : m.peerId ∈ d.peers) :
    (d.handleMessage m.toServerMessage).inventory m.peerId
      = m.effect.apply (d.inventory m.peerId) := by
  obtain ⟨u, hu, heffect⟩ := handleMessage_inventoryMessage hb
  rw [hu, inventory_applyUpdate hp, heffect, if_pos rfl]

/-- A batch of updates overwrites the copy with its composite. -/
theorem inventory_applyUpdates (updates : List SegmentInventoryUpdate) {d : PeerDirectory}
    {p : PeerId} (hp : p ∈ d.peers) :
    p ∈ (updates.foldl applyUpdate d).peers ∧
      (updates.foldl applyUpdate d).inventory p
        = (batchEffect updates p).apply (d.inventory p) := by
  suffices gen : ∀ {e : PeerDirectory} (o : Overwrite SegmentId),
      p ∈ e.peers → e.inventory p = o.apply (d.inventory p) →
      p ∈ (updates.foldl applyUpdate e).peers ∧
        (updates.foldl applyUpdate e).inventory p
          = (updates.foldl (fun (o : Overwrite SegmentId) u => o.andThen (u.effect p)) o).apply
              (d.inventory p) by
    exact gen Overwrite.keep hp (by simp)
  induction updates with
  | nil => intro e o he h; exact ⟨he, h⟩
  | cons u rest ih =>
      intro e o he h
      refine ih _ (mem_applyUpdate.mpr he) ?_
      rw [inventory_applyUpdate he, h, Overwrite.apply_andThen]

end PeerDirectory

end OpenStreamGrid
