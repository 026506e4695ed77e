import OpenStreamGrid.Tracker.Store
import Mathlib.Data.List.Sort

/-!
# The SQLite tracker store

`SQLiteStore` over its five live tables, each keyed by its primary key. A
transaction is one step of the model and a statement is one table operation.
`peer_segments` is a rowid table: `INSERT OR IGNORE` gives a new row a rowid
above every present one and leaves a present row alone, so the rows in rowid
order are an insertion-ordered set. Timestamps compare as their ISO texts do.
-/

namespace OpenStreamGrid

/-- The columns of `peers` beside its key. -/
structure PeerRow where
  address : String
  uploadBandwidthBps : Option ℚ≥0
  metadata : Option Metadata
  joinedAt : Timestamp
  lastSeenAt : Timestamp
  latencyMs : ℚ≥0
  successRate : UnitInterval
  trustScore : UnitInterval
deriving DecidableEq

/-- A row of `peer_segments`, its own primary key. -/
structure PeerSegmentRow where
  broadcastId : BroadcastId
  peerId : PeerId
  segmentName : SegmentId
deriving DecidableEq

/-- SQLite-backed tracker state. -/
structure SQLiteStore where
  broadcasts : OrderedMap BroadcastId Broadcast
  peers : OrderedMap (BroadcastId × PeerId) PeerRow
  peerSegments : OrderedSet PeerSegmentRow
  peerStats : OrderedMap (BroadcastId × PeerId) PeerTrafficStats
  retiredPeerStats : OrderedMap BroadcastId PeerTrafficStats
  failureConsensus : PeerFailureConsensus
  maxSegmentsPerPeer : ℕ
deriving DecidableEq

/-- The order of `ORDER BY broadcast_id, peer_id`. -/
def StalePeer.le (x y : StalePeer) : Prop :=
  x.broadcastId < y.broadcastId ∨ x.broadcastId = y.broadcastId ∧ x.peerId ≤ y.peerId

instance : DecidableRel StalePeer.le := fun x y =>
  inferInstanceAs (Decidable (x.broadcastId < y.broadcastId ∨ _ ∧ _))

/-- The order of `ORDER BY created_at, id`. -/
def Broadcast.listedBefore (x y : Broadcast) : Prop :=
  x.createdAt < y.createdAt ∨ x.createdAt = y.createdAt ∧ x.id ≤ y.id

instance : DecidableRel Broadcast.listedBefore := fun x y =>
  inferInstanceAs (Decidable (x.createdAt < y.createdAt ∨ _ ∧ _))

/-- The order of `ORDER BY joined_at, peer_id`. -/
def Peer.listedBefore (x y : Peer) : Prop :=
  x.joinedAt < y.joinedAt ∨ x.joinedAt = y.joinedAt ∧ x.id ≤ y.id

instance : DecidableRel Peer.listedBefore := fun x y =>
  inferInstanceAs (Decidable (x.joinedAt < y.joinedAt ∨ _ ∧ _))

namespace SQLiteStore

/-- A freshly migrated database. -/
def new (maxSegmentsPerPeer : ℕ) : SQLiteStore :=
  ⟨∅, ∅, ∅, ∅, ∅, .new DEFAULT_FAILURE_QUORUM DEFAULT_FAILURE_WINDOW_MS, maxSegmentsPerPeer⟩

/-! ## Statements -/

def findBroadcast (s : SQLiteStore) (id : BroadcastId) : Option Broadcast :=
  s.broadcasts.get? id

def findPeer (s : SQLiteStore) (broadcastId : BroadcastId) (peerId : PeerId) : Option PeerRow :=
  s.peers.get? (broadcastId, peerId)

def countPeers (s : SQLiteStore) (broadcastId : BroadcastId) : ℕ :=
  s.peers.keys.countP fun key => decide (key.1 = broadcastId)

/-- The peer's segment names, `ORDER BY rowid`. -/
def getSegments (s : SQLiteStore) (broadcastId : BroadcastId) (peerId : PeerId) :
    List SegmentId :=
  (s.peerSegments.toList.filter fun row =>
    decide (row.broadcastId = broadcastId ∧ row.peerId = peerId)).map PeerSegmentRow.segmentName

def mapPeer (peerId : PeerId) (row : PeerRow) (segments : List SegmentId) : Peer where
  id := peerId
  address := row.address
  uploadBandwidthBps := row.uploadBandwidthBps
  metadata := row.metadata
  segments := segments
  joinedAt := row.joinedAt
  lastSeenAt := row.lastSeenAt
  latencyMs := row.latencyMs
  successRate := row.successRate
  trustScore := row.trustScore

def requireBroadcast (s : SQLiteStore) (id : BroadcastId) : Except StoreError Broadcast :=
  match s.findBroadcast id with
  | some broadcast => .ok broadcast
  | none => .error (broadcastNotFound id)

/-- The peer's row, without loading its segments. -/
def requirePeerRow (s : SQLiteStore) (broadcastId : BroadcastId) (peerId : PeerId) :
    Except StoreError PeerRow :=
  match s.findPeer broadcastId peerId with
  | some row => .ok row
  | none =>
      match s.requireBroadcast broadcastId with
      | .error e => .error e
      | .ok _ => .error (peerNotFound peerId)

def requirePeer (s : SQLiteStore) (broadcastId : BroadcastId) (peerId : PeerId) :
    Except StoreError Peer :=
  match s.requireBroadcast broadcastId with
  | .error e => .error e
  | .ok _ =>
      match s.findPeer broadcastId peerId with
      | some row => .ok (mapPeer peerId row (s.getSegments broadcastId peerId))
      | none => .error (peerNotFound peerId)

/-- `ON CONFLICT` rewrites only what a re-join may change. -/
def upsertPeer (s : SQLiteStore) (broadcastId : BroadcastId) (peerId : PeerId) (row : PeerRow) :
    SQLiteStore :=
  let stored :=
    match s.findPeer broadcastId peerId with
    | some existing =>
        { existing with
          address := row.address
          uploadBandwidthBps := row.uploadBandwidthBps
          metadata := row.metadata
          lastSeenAt := row.lastSeenAt }
    | none => row
  { s with peers := s.peers.set (broadcastId, peerId) stored }

/-- `ON CONFLICT DO NOTHING`. -/
def insertEmptyPeerStats (s : SQLiteStore) (broadcastId : BroadcastId) (peerId : PeerId) :
    SQLiteStore :=
  if (broadcastId, peerId) ∈ s.peerStats then s
  else
    { s with
      peerStats := s.peerStats.set (broadcastId, peerId) createEmptyPeerTrafficStats }

/-- Rewrite some columns of a peer's row. -/
def updatePeer (s : SQLiteStore) (broadcastId : BroadcastId) (peerId : PeerId)
    (f : PeerRow → PeerRow) : SQLiteStore :=
  match s.findPeer broadcastId peerId with
  | some row => { s with peers := s.peers.set (broadcastId, peerId) (f row) }
  | none => s

def updatePeerLastSeen (s : SQLiteStore) (broadcastId : BroadcastId) (peerId : PeerId)
    (lastSeenAt : Timestamp) : SQLiteStore :=
  s.updatePeer broadcastId peerId fun row => { row with lastSeenAt }

/-- `INSERT … SELECT` from the peer's counters, adding to a present sum. -/
def accumulateRetiredStats (s : SQLiteStore) (broadcastId : BroadcastId) (peerId : PeerId) :
    SQLiteStore :=
  match s.peerStats.get? (broadcastId, peerId) with
  | none => s
  | some stats =>
      let sum :=
        match s.retiredPeerStats.get? broadcastId with
        | some retired => addPeerTrafficStats retired stats
        | none => stats
      { s with retiredPeerStats := s.retiredPeerStats.set broadcastId sum }

def deletePeerStats (s : SQLiteStore) (broadcastId : BroadcastId) (peerId : PeerId) :
    SQLiteStore :=
  { s with peerStats := s.peerStats.delete (broadcastId, peerId) }

def deletePeerSegments (s : SQLiteStore) (broadcastId : BroadcastId) (peerId : PeerId) :
    SQLiteStore :=
  { s with
    peerSegments := s.peerSegments.eraseAll (s.peerSegments.toList.filter fun row =>
      decide (row.broadcastId = broadcastId ∧ row.peerId = peerId)) }

def deletePeer (s : SQLiteStore) (broadcastId : BroadcastId) (peerId : PeerId) : SQLiteStore :=
  { s with peers := s.peers.delete (broadcastId, peerId) }

/-! ## Broadcasts -/

def registerBroadcast (s : SQLiteStore) (timestamp : Timestamp)
    (registration : BroadcastRegistration) : SQLiteStore × Broadcast × Bool :=
  match s.findBroadcast registration.id with
  | some existing =>
      let broadcast : Broadcast :=
        { existing with
          playlistUrl := registration.playlistUrl
          metadata := registration.metadata.orElse fun _ => existing.metadata
          updatedAt := timestamp }
      ({ s with broadcasts := s.broadcasts.set registration.id broadcast }, broadcast, false)
  | none =>
      let broadcast : Broadcast :=
        { registration with createdAt := timestamp, updatedAt := timestamp }
      ({ s with broadcasts := s.broadcasts.set registration.id broadcast }, broadcast, true)

def unregisterBroadcast (s : SQLiteStore) (id : BroadcastId) : Except StoreError SQLiteStore :=
  match s.requireBroadcast id with
  | .error e => .error e
  | .ok _ =>
      .ok { s with
        peerSegments := s.peerSegments.eraseAll
          (s.peerSegments.toList.filter fun row => decide (row.broadcastId = id))
        peerStats := (s.peerStats.keys.filter fun key => decide (key.1 = id)).foldl
          OrderedMap.delete s.peerStats
        retiredPeerStats := s.retiredPeerStats.delete id
        peers := (s.peers.keys.filter fun key => decide (key.1 = id)).foldl
          OrderedMap.delete s.peers
        broadcasts := s.broadcasts.delete id }

/-! ## Peers -/

/-- The row a join binds to its upsert; quality survives a re-join. -/
def joinRow (request : PeerJoinRequest) (existing : Option PeerRow) (timestamp : Timestamp) :
    PeerRow where
  address := request.address
  uploadBandwidthBps := request.uploadBandwidthBps
  metadata := request.metadata
  joinedAt := (existing.map PeerRow.joinedAt).getD timestamp
  lastSeenAt := timestamp
  latencyMs := (existing.map PeerRow.latencyMs).getD 0
  successRate := (existing.map PeerRow.successRate).getD (clampUnitInterval 1)
  trustScore := (existing.map PeerRow.trustScore).getD (clampUnitInterval 1)

def joinPeerDetailed (s : SQLiteStore) (timestamp : Timestamp) (broadcastId : BroadcastId)
    (request : PeerJoinRequest) (options : JoinPeerOptions) :
    Except StoreError (SQLiteStore × Peer × Bool) :=
  match s.requireBroadcast broadcastId with
  | .error e => .error e
  | .ok _ =>
      let existing := s.findPeer broadcastId request.id
      if existing.isNone ∧
          options.maxPeers.any (fun max => decide (s.countPeers broadcastId ≥ max)) then
        .error peerLimitReached
      else
        let row := joinRow request existing timestamp
        let s' := (s.upsertPeer broadcastId request.id row).insertEmptyPeerStats
          broadcastId request.id
        match s'.requirePeer broadcastId request.id with
        | .error e => .error e
        | .ok peer => .ok (s', peer, existing.isSome)

def retirePeer (s : SQLiteStore) (broadcastId : BroadcastId) (peerId : PeerId) : SQLiteStore :=
  (((s.accumulateRetiredStats broadcastId peerId).deletePeerStats broadcastId peerId).deletePeerSegments
    broadcastId peerId).deletePeer broadcastId peerId

def leavePeer (s : SQLiteStore) (broadcastId : BroadcastId) (peerId : PeerId) :
    Except StoreError SQLiteStore :=
  match s.requirePeer broadcastId peerId with
  | .error e => .error e
  | .ok _ => .ok (s.retirePeer broadcastId peerId)

def getPeer (s : SQLiteStore) (broadcastId : BroadcastId) (peerId : PeerId) : Option Peer :=
  (s.findPeer broadcastId peerId).map fun row =>
    mapPeer peerId row (s.getSegments broadcastId peerId)

def listPeers (s : SQLiteStore) (broadcastId : BroadcastId) (segment : Option SegmentId) :
    Except StoreError (List Peer) :=
  (s.requireBroadcast broadcastId).map fun _ =>
    (((s.peers.entries.filter fun e => decide (e.1.1 = broadcastId)).map fun e =>
        mapPeer e.1.2 e.2 (s.getSegments broadcastId e.1.2)).filter fun peer =>
      match segment with
      | none => true
      | some name => decide (name ∈ peer.segments)).insertionSort Peer.listedBefore

def listPeerStats (s : SQLiteStore) (broadcastId : BroadcastId) :
    Except StoreError (List PeerStatsSnapshot) :=
  (s.listPeers broadcastId none).map fun peers =>
    peers.map fun peer =>
      ⟨peer, (s.peerStats.get? (broadcastId, peer.id)).getD createEmptyPeerTrafficStats⟩

def listBroadcasts (s : SQLiteStore) : List Broadcast :=
  s.broadcasts.values.insertionSort Broadcast.listedBefore

def getBroadcast (s : SQLiteStore) (id : BroadcastId) : Except StoreError Broadcast :=
  s.requireBroadcast id

def listStalePeers (s : SQLiteStore) (cutoff : Timestamp) : List StalePeer :=
  ((s.peers.entries.filter fun e => decide (e.2.lastSeenAt < cutoff)).map fun e =>
    (⟨e.1.1, e.1.2⟩ : StalePeer)).insertionSort StalePeer.le

/-- Retires peers not seen for `maxAgeMs` and returns who was removed. -/
def removeStalePeers (s : SQLiteStore) (now : Timestamp) (maxAgeMs : ℤ) :
    SQLiteStore × List StalePeer :=
  let stalePeers := s.listStalePeers (now - maxAgeMs)
  (stalePeers.foldl (fun s peer => s.retirePeer peer.broadcastId peer.peerId) s, stalePeers)

/-! ## Reports -/

/-- Bring the peer's rows from `existing` to `nextSegments`: rows that stay keep
their rowid, new names are appended. -/
def writeSegments (s : SQLiteStore) (broadcastId : BroadcastId) (peerId : PeerId)
    (existing nextSegments : List SegmentId) : SQLiteStore :=
  let deleted := existing.filter fun segment => decide (segment ∉ nextSegments)
  let inserted := nextSegments.filter fun segment => decide (segment ∉ existing)
  { s with
    peerSegments :=
      (s.peerSegments.eraseAll (deleted.map (PeerSegmentRow.mk broadcastId peerId))).insertAll
        (inserted.map (PeerSegmentRow.mk broadcastId peerId)) }

def reportSegments (s : SQLiteStore) (timestamp : Timestamp) (broadcastId : BroadcastId)
    (peerId : PeerId) (segments : List SegmentId) (replace : Bool) :
    Except StoreError (SQLiteStore × Peer) :=
  match s.requirePeer broadcastId peerId with
  | .error e => .error e
  | .ok _ =>
      let existing := s.getSegments broadcastId peerId
      let nextSegments :=
        limitInventory (mergedReport existing segments replace) s.maxSegmentsPerPeer
      let s' := (s.writeSegments broadcastId peerId existing nextSegments).updatePeerLastSeen
        broadcastId peerId timestamp
      match s'.requirePeer broadcastId peerId with
      | .error e => .error e
      | .ok peer => .ok (s', peer)

def applySegmentDelta (s : SQLiteStore) (timestamp : Timestamp) (broadcastId : BroadcastId)
    (peerId : PeerId) (added removed : List SegmentId) :
    Except StoreError (SQLiteStore × Peer) :=
  match s.requirePeerRow broadcastId peerId with
  | .error e => .error e
  | .ok row =>
      let existing := s.getSegments broadcastId peerId
      let nextSegments := limitInventory (mergedDelta existing added removed) s.maxSegmentsPerPeer
      let s' := (s.writeSegments broadcastId peerId existing nextSegments).updatePeerLastSeen
        broadcastId peerId timestamp
      -- The order in which the rows would be read back.
      let stored :=
        (existing.filter fun segment => decide (segment ∈ nextSegments)) ++
          (nextSegments.filter fun segment => decide (segment ∉ existing))
      .ok (s', mapPeer peerId { row with lastSeenAt := timestamp } stored)

def heartbeat (s : SQLiteStore) (timestamp : Timestamp) (broadcastId : BroadcastId)
    (peerId : PeerId) (heartbeat : PeerHeartbeat) : Except StoreError (SQLiteStore × Peer) :=
  match s.requirePeerRow broadcastId peerId with
  | .error e => .error e
  | .ok row =>
      let updated : PeerRow :=
        { row with
          uploadBandwidthBps :=
            (heartbeat.uploadBandwidthBps.map fun v => some v.toNNRat).getD row.uploadBandwidthBps
          latencyMs := (heartbeat.latencyMs.map Rat.toNNRat).getD row.latencyMs
          successRate := (heartbeat.successRate.map clampUnitInterval).getD row.successRate
          lastSeenAt := timestamp }
      .ok (s.updatePeer broadcastId peerId fun row =>
          { row with
            uploadBandwidthBps := updated.uploadBandwidthBps
            latencyMs := updated.latencyMs
            successRate := updated.successRate
            lastSeenAt := updated.lastSeenAt },
        mapPeer peerId updated (s.getSegments broadcastId peerId))

def reportStats (s : SQLiteStore) (timestamp : Timestamp) (broadcastId : BroadcastId)
    (peerId : PeerId) (stats : TrafficRecord JsNumber) : Except StoreError SQLiteStore :=
  match s.requirePeerRow broadcastId peerId with
  | .error e => .error e
  | .ok _ =>
      .ok ({ s with
          peerStats := s.peerStats.set (broadcastId, peerId)
            (sanitizePeerTrafficStats stats) }.updatePeerLastSeen broadcastId peerId timestamp)

def reportPeerFailure (s : SQLiteStore) (now : Timestamp) (broadcastId : BroadcastId)
    (peerId : PeerId) (report : PeerFailureReport) : Except StoreError (SQLiteStore × Peer) :=
  match s.requirePeer broadcastId peerId, s.requirePeer broadcastId report.reporterId with
  | .error e, _ => .error e
  | .ok _, .error e => .error e
  | .ok reported, .ok _ =>
      let (failureConsensus, confirmed) :=
        s.failureConsensus.observe now broadcastId peerId report
      let s := { s with failureConsensus }
      if confirmed then
        let quality := penalizePeerQuality reported.trustScore reported.successRate report.reason
        let s' := s.updatePeer broadcastId peerId fun row =>
          { row with trustScore := quality.1, successRate := quality.2 }
        match s'.requirePeer broadcastId peerId with
        | .error e => .error e
        | .ok peer => .ok (s', peer)
      else .ok (s, reported)

/-! ## Statistics -/

def getBroadcastStats (s : SQLiteStore) (broadcastId : BroadcastId) :
    Except StoreError TrafficTotals :=
  (s.requireBroadcast broadcastId).map fun _ =>
    { peers := s.countPeers broadcastId
      stats :=
        (((s.peerStats.entries.filter fun e => decide (e.1.1 = broadcastId)).map Prod.snd) ++
          ((s.retiredPeerStats.entries.filter fun e => decide (e.1 = broadcastId)).map
            Prod.snd)).sum }

/-- Totals over the whole database, with the number of broadcasts. -/
def getGlobalStats (s : SQLiteStore) : ℕ × TrafficTotals :=
  (s.broadcasts.size,
    { peers := s.peers.size
      stats := (s.peerStats.values ++ s.retiredPeerStats.values).sum })

/-! ## What the statements do -/

theorem requireBroadcast_ok {s : SQLiteStore} {b : BroadcastId} {broadcast : Broadcast} :
    s.requireBroadcast b = .ok broadcast ↔ s.broadcasts.get? b = some broadcast := by
  unfold requireBroadcast findBroadcast
  cases s.broadcasts.get? b <;> simp

theorem not_mem_of_requireBroadcast {s : SQLiteStore} {b : BroadcastId} {error : StoreError}
    (h : s.requireBroadcast b = .error error) : b ∉ s.broadcasts := by
  intro hmem
  obtain ⟨broadcast, hget⟩ := OrderedMap.get?_of_mem hmem
  rw [requireBroadcast_ok.mpr hget] at h
  cases h

theorem requirePeerRow_ok {s : SQLiteStore} {b : BroadcastId} {p : PeerId} {row : PeerRow} :
    s.requirePeerRow b p = .ok row ↔ s.findPeer b p = some row := by
  unfold requirePeerRow
  cases s.findPeer b p with
  | some found => simp
  | none =>
      cases s.requireBroadcast b with
      | error e => simp
      | ok broadcast => simp

theorem requirePeer_ok {s : SQLiteStore} {b : BroadcastId} {p : PeerId} {peer : Peer} :
    s.requirePeer b p = .ok peer ↔
      b ∈ s.broadcasts ∧ ∃ row, s.findPeer b p = some row ∧
        peer = mapPeer p row (s.getSegments b p) := by
  unfold requirePeer
  cases hb : s.requireBroadcast b with
  | error e =>
      simp [not_mem_of_requireBroadcast hb]
  | ok broadcast =>
      have : b ∈ s.broadcasts := OrderedMap.mem_of_get? (requireBroadcast_ok.mp hb)
      cases hp : s.findPeer b p with
      | none => simp [this]
      | some row => simp [this, eq_comm]

theorem requirePeer_isOk_iff {s : SQLiteStore} {b : BroadcastId} {p : PeerId} :
    (∃ peer, s.requirePeer b p = .ok peer) ↔ b ∈ s.broadcasts ∧ (s.findPeer b p).isSome := by
  simp only [requirePeer_ok, Option.isSome_iff_exists]
  constructor
  · rintro ⟨_, hb, row, hrow, _⟩
    exact ⟨hb, row, hrow⟩
  · rintro ⟨hb, row, hrow⟩
    exact ⟨_, hb, row, hrow, rfl⟩

/-! ### The segment rows -/

theorem mem_getSegments {s : SQLiteStore} {b : BroadcastId} {p : PeerId} {x : SegmentId} :
    x ∈ s.getSegments b p ↔ ⟨b, p, x⟩ ∈ s.peerSegments := by
  simp only [getSegments, List.mem_map, List.mem_filter, decide_eq_true_eq]
  constructor
  · rintro ⟨⟨b', p', x'⟩, ⟨hmem, rfl, rfl⟩, rfl⟩
    exact hmem
  · intro hmem
    exact ⟨⟨b, p, x⟩, ⟨hmem, rfl, rfl⟩, rfl⟩

theorem nodup_getSegments (s : SQLiteStore) (b : BroadcastId) (p : PeerId) :
    (s.getSegments b p).Nodup := by
  refine List.Nodup.map_on ?_ (s.peerSegments.nodup.filter _)
  rintro ⟨b₁, p₁, x₁⟩ h₁ ⟨b₂, p₂, x₂⟩ h₂ heq
  simp only [List.mem_filter, decide_eq_true_eq] at h₁ h₂
  obtain ⟨_, rfl, rfl⟩ := h₁
  obtain ⟨_, rfl, rfl⟩ := h₂
  simpa using heq

theorem getSegments_congr {s s' : SQLiteStore} (h : s'.peerSegments = s.peerSegments)
    (b : BroadcastId) (p : PeerId) : s'.getSegments b p = s.getSegments b p := by
  unfold getSegments
  rw [h]

/-- After a write the peer's rows are exactly the names it was asked to keep. -/
theorem mem_getSegments_writeSegments {s : SQLiteStore} {b b' : BroadcastId} {p p' : PeerId}
    {next : List SegmentId} {x : SegmentId} :
    x ∈ (s.writeSegments b p (s.getSegments b p) next).getSegments b' p' ↔
      if b' = b ∧ p' = p then x ∈ next else x ∈ s.getSegments b' p' := by
  simp only [mem_getSegments, writeSegments, OrderedSet.mem_insertAll, OrderedSet.mem_eraseAll,
    List.mem_map, List.mem_filter, decide_eq_true_eq, PeerSegmentRow.mk.injEq]
  by_cases hbp : b' = b ∧ p' = p
  · obtain ⟨rfl, rfl⟩ := hbp
    simp only [and_self, if_true, true_and, exists_eq_right]
    by_cases hrow : (⟨b', p', x⟩ : PeerSegmentRow) ∈ s.peerSegments
    · simp [hrow]
    · simp [hrow]
  · rw [if_neg hbp]
    constructor
    · rintro (⟨hmem, _⟩ | ⟨y, _, rfl, rfl, rfl⟩)
      · exact hmem
      · exact absurd ⟨rfl, rfl⟩ hbp
    · intro hmem
      refine Or.inl ⟨hmem, ?_⟩
      rintro ⟨y, _, rfl, rfl, rfl⟩
      exact hbp ⟨rfl, rfl⟩

/-! ### The peer rows -/

theorem findPeer_updatePeer (s : SQLiteStore) (b b' : BroadcastId) (p p' : PeerId)
    (f : PeerRow → PeerRow) :
    (s.updatePeer b p f).findPeer b' p'
      = if b' = b ∧ p' = p then (s.findPeer b p).map f else s.findPeer b' p' := by
  unfold updatePeer
  cases h : s.findPeer b p with
  | none =>
      split_ifs with hbp
      · rw [hbp.1, hbp.2, h]
        rfl
      · rfl
  | some row =>
      simp only [findPeer, OrderedMap.get?_set, Prod.mk.injEq, Option.map_some]

theorem updatePeer_broadcasts (s : SQLiteStore) (b : BroadcastId) (p : PeerId)
    (f : PeerRow → PeerRow) : (s.updatePeer b p f).broadcasts = s.broadcasts := by
  unfold updatePeer
  cases s.findPeer b p <;> rfl

theorem updatePeer_peerSegments (s : SQLiteStore) (b : BroadcastId) (p : PeerId)
    (f : PeerRow → PeerRow) : (s.updatePeer b p f).peerSegments = s.peerSegments := by
  unfold updatePeer
  cases s.findPeer b p <;> rfl

theorem updatePeer_maxSegmentsPerPeer (s : SQLiteStore) (b : BroadcastId) (p : PeerId)
    (f : PeerRow → PeerRow) :
    (s.updatePeer b p f).maxSegmentsPerPeer = s.maxSegmentsPerPeer := by
  unfold updatePeer
  cases s.findPeer b p <;> rfl

theorem findPeer_upsertPeer (s : SQLiteStore) (b b' : BroadcastId) (p p' : PeerId)
    (row : PeerRow) :
    ((s.upsertPeer b p row).findPeer b' p').isSome
      = if b' = b ∧ p' = p then true else (s.findPeer b' p').isSome := by
  simp only [upsertPeer, findPeer, OrderedMap.get?_set, Prod.mk.injEq]
  split_ifs <;> rfl

theorem insertEmptyPeerStats_tables (s : SQLiteStore) (b : BroadcastId) (p : PeerId) :
    (s.insertEmptyPeerStats b p).peers = s.peers ∧
      (s.insertEmptyPeerStats b p).broadcasts = s.broadcasts ∧
      (s.insertEmptyPeerStats b p).peerSegments = s.peerSegments ∧
      (s.insertEmptyPeerStats b p).retiredPeerStats = s.retiredPeerStats ∧
      (s.insertEmptyPeerStats b p).maxSegmentsPerPeer = s.maxSegmentsPerPeer := by
  unfold insertEmptyPeerStats
  split_ifs <;> exact ⟨rfl, rfl, rfl, rfl, rfl⟩

theorem findPeer_insertEmptyPeerStats (s : SQLiteStore) (b b' : BroadcastId) (p p' : PeerId) :
    (s.insertEmptyPeerStats b p).findPeer b' p' = s.findPeer b' p' := by
  unfold findPeer
  rw [(insertEmptyPeerStats_tables s b p).1]

/-- Everything a join can do; reading the joined row back cannot fail. -/
theorem joinPeerDetailed_ok {s s' : SQLiteStore} {t : Timestamp} {b : BroadcastId}
    {request : PeerJoinRequest} {options : JoinPeerOptions} :
    (∃ peer already, s.joinPeerDetailed t b request options = .ok (s', peer, already)) ↔
      b ∈ s.broadcasts ∧
        ¬ ((s.findPeer b request.id).isNone ∧
            options.maxPeers.any fun max => decide (s.countPeers b ≥ max)) ∧
        s' = (s.upsertPeer b request.id
          (joinRow request (s.findPeer b request.id) t)).insertEmptyPeerStats b request.id := by
  unfold joinPeerDetailed
  cases hb : s.requireBroadcast b with
  | error e =>
      simp [not_mem_of_requireBroadcast hb]
  | ok broadcast =>
      have hmem : b ∈ s.broadcasts := OrderedMap.mem_of_get? (requireBroadcast_ok.mp hb)
      by_cases hlimit : (s.findPeer b request.id).isNone ∧
          options.maxPeers.any fun max => decide (s.countPeers b ≥ max)
      · simp only [if_pos hlimit]
        simp [hlimit]
      · have hread : ∃ peer, ((s.upsertPeer b request.id
            (joinRow request (s.findPeer b request.id) t)).insertEmptyPeerStats b
              request.id).requirePeer b request.id = .ok peer := by
          refine requirePeer_isOk_iff.mpr ⟨?_, ?_⟩
          · rw [(insertEmptyPeerStats_tables _ b request.id).2.1]
            exact hmem
          · rw [findPeer_insertEmptyPeerStats, findPeer_upsertPeer, if_pos ⟨rfl, rfl⟩]
        obtain ⟨peer, hpeer⟩ := hread
        simp only [if_neg hlimit, hpeer, Except.ok.injEq, Prod.mk.injEq]
        constructor
        · rintro ⟨_, _, h, _, _⟩
          exact ⟨hmem, hlimit, h.symm⟩
        · rintro ⟨_, _, rfl⟩
          exact ⟨_, _, rfl, rfl, rfl⟩

/-! ### Retirement -/

theorem accumulateRetiredStats_tables (s : SQLiteStore) (b : BroadcastId) (p : PeerId) :
    (s.accumulateRetiredStats b p).peers = s.peers ∧
      (s.accumulateRetiredStats b p).broadcasts = s.broadcasts ∧
      (s.accumulateRetiredStats b p).peerSegments = s.peerSegments ∧
      (s.accumulateRetiredStats b p).peerStats = s.peerStats ∧
      (s.accumulateRetiredStats b p).maxSegmentsPerPeer = s.maxSegmentsPerPeer := by
  unfold accumulateRetiredStats
  cases s.peerStats.get? (b, p) <;> exact ⟨rfl, rfl, rfl, rfl, rfl⟩

theorem findPeer_retirePeer (s : SQLiteStore) (b b' : BroadcastId) (p p' : PeerId) :
    (s.retirePeer b p).findPeer b' p'
      = if b' = b ∧ p' = p then none else s.findPeer b' p' := by
  simp only [findPeer, retirePeer, deletePeer, deletePeerSegments, deletePeerStats,
    (accumulateRetiredStats_tables s b p).1, OrderedMap.get?_delete, Prod.mk.injEq]

theorem retirePeer_broadcasts (s : SQLiteStore) (b : BroadcastId) (p : PeerId) :
    (s.retirePeer b p).broadcasts = s.broadcasts :=
  (accumulateRetiredStats_tables s b p).2.1

theorem retirePeer_maxSegmentsPerPeer (s : SQLiteStore) (b : BroadcastId) (p : PeerId) :
    (s.retirePeer b p).maxSegmentsPerPeer = s.maxSegmentsPerPeer :=
  (accumulateRetiredStats_tables s b p).2.2.2.2

theorem mem_getSegments_retirePeer {s : SQLiteStore} {b b' : BroadcastId} {p p' : PeerId}
    {x : SegmentId} :
    x ∈ (s.retirePeer b p).getSegments b' p' ↔
      ¬ (b' = b ∧ p' = p) ∧ x ∈ s.getSegments b' p' := by
  simp only [mem_getSegments, retirePeer, deletePeer, deletePeerSegments, deletePeerStats,
    (accumulateRetiredStats_tables s b p).2.2.1, OrderedSet.mem_eraseAll, List.mem_filter,
    OrderedSet.mem_toList, decide_eq_true_eq]
  constructor
  · rintro ⟨hmem, hnot⟩
    exact ⟨fun h => hnot ⟨hmem, h⟩, hmem⟩
  · rintro ⟨hnot, hmem⟩
    exact ⟨hmem, fun h => hnot h.2⟩

theorem leavePeer_ok {s s' : SQLiteStore} {b : BroadcastId} {p : PeerId} :
    s.leavePeer b p = .ok s' ↔
      (b ∈ s.broadcasts ∧ (s.findPeer b p).isSome) ∧ s' = s.retirePeer b p := by
  unfold leavePeer
  rw [← requirePeer_isOk_iff]
  cases s.requirePeer b p with
  | error e => simp
  | ok peer => simp [eq_comm]

/-! ### Segment reports -/

/-- The state after an accepted report or delta. -/
def withSegments (s : SQLiteStore) (timestamp : Timestamp) (b : BroadcastId) (p : PeerId)
    (next : List SegmentId) : SQLiteStore :=
  (s.writeSegments b p (s.getSegments b p) next).updatePeerLastSeen b p timestamp

theorem findPeer_withSegments (s : SQLiteStore) (t : Timestamp) (b b' : BroadcastId)
    (p p' : PeerId) (next : List SegmentId) :
    ((s.withSegments t b p next).findPeer b' p').isSome = (s.findPeer b' p').isSome := by
  unfold withSegments updatePeerLastSeen
  rw [findPeer_updatePeer]
  split_ifs with hbp
  · rw [hbp.1, hbp.2, Option.isSome_map]
    rfl
  · rfl

theorem withSegments_broadcasts (s : SQLiteStore) (t : Timestamp) (b : BroadcastId) (p : PeerId)
    (next : List SegmentId) : (s.withSegments t b p next).broadcasts = s.broadcasts :=
  updatePeer_broadcasts ..

theorem withSegments_maxSegmentsPerPeer (s : SQLiteStore) (t : Timestamp) (b : BroadcastId)
    (p : PeerId) (next : List SegmentId) :
    (s.withSegments t b p next).maxSegmentsPerPeer = s.maxSegmentsPerPeer :=
  updatePeer_maxSegmentsPerPeer ..

theorem mem_getSegments_withSegments {s : SQLiteStore} {t : Timestamp} {b b' : BroadcastId}
    {p p' : PeerId} {next : List SegmentId} {x : SegmentId} :
    x ∈ (s.withSegments t b p next).getSegments b' p' ↔
      if b' = b ∧ p' = p then x ∈ next else x ∈ s.getSegments b' p' := by
  unfold withSegments updatePeerLastSeen
  rw [getSegments_congr (updatePeer_peerSegments ..), mem_getSegments_writeSegments]

theorem applySegmentDelta_ok {s s' : SQLiteStore} {t : Timestamp} {b : BroadcastId} {p : PeerId}
    {added removed : List SegmentId} :
    (∃ peer, s.applySegmentDelta t b p added removed = .ok (s', peer)) ↔
      (s.findPeer b p).isSome ∧
        s' = s.withSegments t b p
          (limitInventory (mergedDelta (s.getSegments b p) added removed)
            s.maxSegmentsPerPeer) := by
  unfold applySegmentDelta
  cases hr : s.requirePeerRow b p with
  | error e =>
      have : (s.findPeer b p).isSome = false := by
        cases hp : s.findPeer b p with
        | none => rfl
        | some row =>
            rw [requirePeerRow_ok.mpr hp] at hr
            exact absurd hr (by simp)
      simp [this]
  | ok row =>
      rw [requirePeerRow_ok.mp hr]
      simp [withSegments, eq_comm]

theorem reportSegments_ok {s s' : SQLiteStore} {t : Timestamp} {b : BroadcastId} {p : PeerId}
    {segments : List SegmentId} {replace : Bool} :
    (∃ peer, s.reportSegments t b p segments replace = .ok (s', peer)) ↔
      (b ∈ s.broadcasts ∧ (s.findPeer b p).isSome) ∧
        s' = s.withSegments t b p
          (limitInventory (mergedReport (s.getSegments b p) segments replace)
            s.maxSegmentsPerPeer) := by
  unfold reportSegments
  rw [← requirePeer_isOk_iff]
  cases hr : s.requirePeer b p with
  | error e => simp
  | ok found =>
      obtain ⟨hb, hp⟩ := requirePeer_isOk_iff.mp ⟨found, hr⟩
      obtain ⟨peer, hpeer⟩ : ∃ peer, (s.withSegments t b p
          (limitInventory (mergedReport (s.getSegments b p) segments replace)
            s.maxSegmentsPerPeer)).requirePeer b p = .ok peer := by
        rw [requirePeer_isOk_iff, withSegments_broadcasts, findPeer_withSegments]
        exact ⟨hb, hp⟩
      unfold withSegments at hpeer ⊢
      simp only [hpeer, Except.ok.injEq, Prod.mk.injEq]
      simp [eq_comm]

/-! ### Effects on the stored peers -/

/-- `s'` differs from `s` in at most one peer's row and segment rows. -/
structure RowsUpdated (s s' : SQLiteStore) (b : BroadcastId) (p : PeerId) (present : Bool)
    (segments : SegmentId → Prop) : Prop where
  findPeer : ∀ b' p', (s'.findPeer b' p').isSome
    = if b' = b ∧ p' = p then present else (s.findPeer b' p').isSome
  segments_same : ∀ x, x ∈ s'.getSegments b p ↔ segments x
  segments_other : ∀ b' p' x, ¬ (b' = b ∧ p' = p) →
    (x ∈ s'.getSegments b' p' ↔ x ∈ s.getSegments b' p')
  broadcasts : s'.broadcasts = s.broadcasts
  maxSegmentsPerPeer : s'.maxSegmentsPerPeer = s.maxSegmentsPerPeer

theorem rowsUpdated_withSegments {s : SQLiteStore} {t : Timestamp} {b : BroadcastId} {p : PeerId}
    {next : List SegmentId} (hp : (s.findPeer b p).isSome) :
    RowsUpdated s (s.withSegments t b p next) b p true (· ∈ next) where
  findPeer := by
    intro b' p'
    rw [findPeer_withSegments]
    split_ifs with hbp
    · rw [hbp.1, hbp.2, hp]
    · rfl
  segments_same := by
    intro x
    rw [mem_getSegments_withSegments, if_pos ⟨rfl, rfl⟩]
  segments_other := by
    intro b' p' x hbp
    rw [mem_getSegments_withSegments, if_neg hbp]
  broadcasts := withSegments_broadcasts ..
  maxSegmentsPerPeer := withSegments_maxSegmentsPerPeer ..

theorem rowsUpdated_retirePeer {s : SQLiteStore} {b : BroadcastId} {p : PeerId} :
    RowsUpdated s (s.retirePeer b p) b p false (fun _ => False) where
  findPeer := by
    intro b' p'
    rw [findPeer_retirePeer]
    split_ifs <;> rfl
  segments_same := by
    intro x
    rw [mem_getSegments_retirePeer]
    exact ⟨fun h => h.1 ⟨rfl, rfl⟩, False.elim⟩
  segments_other := by
    intro b' p' x hbp
    rw [mem_getSegments_retirePeer]
    exact ⟨And.right, fun h => ⟨hbp, h⟩⟩
  broadcasts := retirePeer_broadcasts ..
  maxSegmentsPerPeer := retirePeer_maxSegmentsPerPeer ..

theorem rowsUpdated_join {s : SQLiteStore} {b : BroadcastId} {p : PeerId} {row : PeerRow} :
    RowsUpdated s ((s.upsertPeer b p row).insertEmptyPeerStats b p) b p true
      (· ∈ s.getSegments b p) where
  findPeer := by
    intro b' p'
    rw [findPeer_insertEmptyPeerStats, findPeer_upsertPeer]
  segments_same := by
    intro x
    rw [getSegments_congr (insertEmptyPeerStats_tables _ b p).2.2.1]
    rfl
  segments_other := by
    intro b' p' x _
    rw [getSegments_congr (insertEmptyPeerStats_tables _ b p).2.2.1]
    rfl
  broadcasts := (insertEmptyPeerStats_tables _ b p).2.1
  maxSegmentsPerPeer := (insertEmptyPeerStats_tables _ b p).2.2.2.2

end SQLiteStore

end OpenStreamGrid
