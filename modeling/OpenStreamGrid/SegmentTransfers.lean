import OpenStreamGrid.Common.SegmentReception
import OpenStreamGrid.Peer.WebRtcTransport
import OpenStreamGrid.Sdk.WebRtcPeer

/-!
# Segment transfers between peers

Node peers and browsers send segments to one another in all four pairings.
-/

namespace OpenStreamGrid

/-- Whose transport it is. -/
inductive TransportSide where
  | node
  | browser
deriving DecidableEq

namespace TransportSide

def serveSegment : TransportSide → String → Option (List UInt8) → List ChannelData
  | node => WebRtcTransport.serveSegment
  | browser => BrowserWebRtcPeer.serveSegment

def receiveSegment : TransportSide → SegmentLimit → String → SegmentReceiver
  | node => WebRtcTransport.receiveSegment
  | browser => BrowserWebRtcPeer.receiveSegment

/-- The messages as they arrive on an open channel. -/
def arrivals (frames : List ChannelData) : List ChannelEvent :=
  frames.map fun frame => .message frame.delivered true

theorem carry_delivered (frame : List UInt8 → ChannelData)
    (hframe : ∀ bytes, (frame bytes).delivered.binary? = some bytes) (chunks : List (List UInt8)) :
    SegmentReceiver.Carry ((chunks.map frame).map ChannelData.delivered) chunks := by
  induction chunks with
  | nil => exact List.Forall₂.nil
  | cons chunk chunks ih => exact List.Forall₂.cons (hframe chunk) ih

/-- **The framing round trip** for every pairing of a sender with a receiver. -/
theorem segment_round_trip (sender receiver : TransportSide) (maxSegmentBytes : SegmentLimit)
    (segmentName : String) (data : List UInt8) (hnonempty : 1 ≤ data.length)
    (hlimit : data.length ≤ maxSegmentBytes) :
    ((receiver.receiveSegment maxSegmentBytes segmentName).receive
      (arrivals (sender.serveSegment segmentName (some data)))).outcome = some (.ok data) := by
  have hne : data ≠ [] := List.ne_nil_of_length_pos hnonempty
  have hreceives : ∀ R : SegmentReceiver, R.maxSegmentBytes = maxSegmentBytes →
      R.segmentName = segmentName →
      (R.receive (arrivals (sender.serveSegment segmentName (some data)))).outcome =
        some (.ok data) := by
    rintro R rfl rfl
    cases sender with
    | node =>
        have hcarry := carry_delivered .view (fun bytes => rfl)
          (slices MAX_DATA_CHANNEL_CHUNK_BYTES data)
        have hround := R.receive_segment hne hlimit hcarry
        rw [List.map_cons, List.map_map] at hround
        exact hround
    | browser =>
        have hcarry := carry_delivered .arrayBuffer (fun bytes => rfl)
          (slices MAX_DATA_CHANNEL_CHUNK_BYTES data)
        have hround := R.receive_segment hne hlimit hcarry
        rw [List.map_cons, List.map_map] at hround
        exact hround
  cases receiver with
  | node => exact hreceives _ rfl rfl
  | browser => exact hreceives _ rfl rfl

/-- One byte more than a chunk, from a Node peer to a browser. -/
theorem segment_round_trip_twoChunks :
    ((browser.receiveSegment DEFAULT_MAX_SEGMENT_BYTES "segment_00001.ts").receive
      (arrivals (node.serveSegment "segment_00001.ts" (some (List.replicate 16385 7))))).outcome =
      some (.ok (List.replicate 16385 7)) := by
  apply segment_round_trip node browser DEFAULT_MAX_SEGMENT_BYTES
  · rw [List.length_replicate]
    decide
  · rw [List.length_replicate]
    decide

/-- **Hostile senders** are contained by either receiver. -/
theorem hostile_sender_contained (receiver : TransportSide) (maxSegmentBytes : SegmentLimit)
    (segmentName : String) (events : List ChannelEvent) :
    (receiver.receiveSegment maxSegmentBytes segmentName).Contained events :=
  SegmentReceiver.contained _ events

end TransportSide

end OpenStreamGrid
