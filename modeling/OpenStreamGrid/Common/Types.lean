import OpenStreamGrid.Lib.OrderedMap
import OpenStreamGrid.Lib.OrderedSet
import OpenStreamGrid.Lib.PlainData
import Mathlib.Algebra.Order.Floor.Defs
import Mathlib.Algebra.Order.Ring.Rat
import Mathlib.Data.Fintype.Pi
import Mathlib.Data.NNRat.Defs
import Mathlib.Data.Rat.Floor

/-!
# The shared data model

The records tracker, Node peer and browser SDK exchange. Identifiers are
strings, as in the source; timestamps are milliseconds since the epoch (the
ISO texts of the years 0 to 9999 order as these numbers do); JavaScript numbers
that only ever enter comparisons and exact arithmetic are rationals, and the
metrics whose range the tracker checks on entry carry that range in their type.
-/

namespace OpenStreamGrid

abbrev BroadcastId := String
abbrev PeerId := String
abbrev SegmentId := String
abbrev Timestamp := ℤ

/-- A JavaScript object of strings. -/
abbrev Metadata := OrderedMap String String

/-- Payload used to register or update a broadcast. -/
structure BroadcastRegistration where
  id : BroadcastId
  playlistUrl : String
  metadata : Option Metadata
deriving DecidableEq

/-- Registered broadcast metadata returned by the tracker. -/
structure Broadcast extends BroadcastRegistration where
  createdAt : Timestamp
  updatedAt : Timestamp
deriving DecidableEq

/-! ## Quality metrics -/

/-- A quality metric between zero and one. -/
abbrev UnitInterval : Type := {q : ℚ // 0 ≤ q ∧ q ≤ 1}

/-- Constrains a quality metric to the inclusive range from zero to one. -/
def clampUnitInterval (value : ℚ) : UnitInterval :=
  ⟨min 1 (max 0 value), le_min zero_le_one (le_max_left _ _), min_le_left _ _⟩

/-! ## Peers -/

/-- Payload used when a peer joins a broadcast. The server admits a bandwidth
only when it is non-negative. -/
structure PeerJoinRequest where
  id : PeerId
  address : String
  uploadBandwidthBps : Option ℚ≥0
  metadata : Option Metadata
deriving DecidableEq

/-- Optional peer quality measurements sent with a heartbeat. -/
structure PeerHeartbeat where
  latencyMs : Option ℚ
  uploadBandwidthBps : Option ℚ
  successRate : Option ℚ
deriving DecidableEq

/-- Tracker representation of a connected peer. -/
structure Peer extends PeerJoinRequest where
  segments : List SegmentId
  joinedAt : Timestamp
  lastSeenAt : Timestamp
  latencyMs : ℚ≥0
  successRate : UnitInterval
  trustScore : UnitInterval
deriving DecidableEq

inductive FailureReason where
  | connection
  | timeout
  | integrity
  | http
deriving DecidableEq

def FailureReason.text : FailureReason → String
  | .connection => "connection"
  | .timeout => "timeout"
  | .integrity => "integrity"
  | .http => "http"

/-- Report that lowers a peer's quality scores after a failed request. -/
structure PeerFailureReport where
  reporterId : PeerId
  reason : FailureReason
deriving DecidableEq

/-! ## Traffic counters -/

/-- The metrics of a traffic snapshot. -/
inductive PeerTrafficStatKey where
  | bytesDownloadedP2P
  | bytesDownloadedOrigin
  | bytesUploadedP2P
  | p2pRequests
  | p2pSuccesses
  | p2pFailures
  | originRequests
  | integrityFailures
  | fallbacks
  | segmentsCached
deriving DecidableEq

/-- Ordered keys for iterating over every peer traffic metric. -/
def peerTrafficStatKeys : List PeerTrafficStatKey :=
  [.bytesDownloadedP2P, .bytesDownloadedOrigin, .bytesUploadedP2P, .p2pRequests,
    .p2pSuccesses, .p2pFailures, .originRequests, .integrityFailures, .fallbacks,
    .segmentsCached]

instance : Fintype PeerTrafficStatKey where
  elems := ⟨peerTrafficStatKeys, by decide⟩
  complete := by rintro (_ | _) <;> decide

/-- A value for every metric; `stats[key]` of the source is application. -/
abbrev TrafficRecord (α : Type) := PeerTrafficStatKey → α

/-- Cumulative counters as the tracker persists them. -/
abbrev PeerTrafficStats := TrafficRecord ℕ

/-- Zero-filled snapshot. -/
def createEmptyPeerTrafficStats : PeerTrafficStats := 0

/-- Adds every metric of `source` to `target`. -/
def addPeerTrafficStats (target source : PeerTrafficStats) : PeerTrafficStats :=
  fun key => target key + source key

@[simp] theorem createEmptyPeerTrafficStats_eq : createEmptyPeerTrafficStats = 0 := rfl

@[simp] theorem addPeerTrafficStats_eq (target source : PeerTrafficStats) :
    addPeerTrafficStats target source = target + source := rfl

/-- Aggregated peer count and traffic counters. -/
structure TrafficTotals where
  peers : ℕ
  stats : PeerTrafficStats
deriving DecidableEq

/-! ## Messages to WebSocket clients -/

/-- Net change to one peer's segment inventory within a batch. -/
inductive SegmentInventoryUpdate where
  | delta (peerId : PeerId) (added removed : List SegmentId)
  | replace (peerId : PeerId) (segments : List SegmentId)
deriving DecidableEq

def SegmentInventoryUpdate.peerId : SegmentInventoryUpdate → PeerId
  | .delta peerId _ _ => peerId
  | .replace peerId _ => peerId

/-- The peer and inventory messages the tracker emits. -/
inductive WsServerMessage where
  | peerJoined (broadcastId : BroadcastId) (peer : Peer)
  | peerLeft (broadcastId : BroadcastId) (peerId : PeerId)
  | segmentAvailable (broadcastId : BroadcastId) (peerId : PeerId)
      (segments : List SegmentId) (replace : Bool)
  | segmentInventoryDelta (broadcastId : BroadcastId) (peerId : PeerId)
      (added removed : List SegmentId)
  | segmentInventoryBatch (broadcastId : BroadcastId) (updates : List SegmentInventoryUpdate)
  | peerList (broadcastId : BroadcastId) (peers : List Peer)
deriving DecidableEq

def WsServerMessage.broadcastId : WsServerMessage → BroadcastId
  | .peerJoined broadcastId _ => broadcastId
  | .peerLeft broadcastId _ => broadcastId
  | .segmentAvailable broadcastId _ _ _ => broadcastId
  | .segmentInventoryDelta broadcastId _ _ _ => broadcastId
  | .segmentInventoryBatch broadcastId _ => broadcastId
  | .peerList broadcastId _ => broadcastId

/-- The messages that describe one inventory report. -/
inductive InventoryMessage where
  | segmentAvailable (broadcastId : BroadcastId) (peerId : PeerId)
      (segments : List SegmentId) (replace : Bool)
  | segmentInventoryDelta (broadcastId : BroadcastId) (peerId : PeerId)
      (added removed : List SegmentId)
deriving DecidableEq

namespace InventoryMessage

def toServerMessage : InventoryMessage → WsServerMessage
  | .segmentAvailable b p segments replace => .segmentAvailable b p segments replace
  | .segmentInventoryDelta b p added removed => .segmentInventoryDelta b p added removed

def broadcastId : InventoryMessage → BroadcastId
  | .segmentAvailable b _ _ _ => b
  | .segmentInventoryDelta b _ _ _ => b

def peerId : InventoryMessage → PeerId
  | .segmentAvailable _ p _ _ => p
  | .segmentInventoryDelta _ p _ _ => p

end InventoryMessage

/-- JavaScript's `string.length`: UTF-16 code units. -/
def utf16Length (s : String) : ℕ :=
  (s.toList.map fun c => if c.toNat < 0x10000 then 1 else 2).sum

end OpenStreamGrid
