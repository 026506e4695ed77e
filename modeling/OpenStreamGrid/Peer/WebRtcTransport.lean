import OpenStreamGrid.Common.SegmentFraming

/-!
# Segments over the Node peer's data channels

The sender and the receiver of `WebRtcTransport`.
-/

namespace OpenStreamGrid

namespace WebRtcTransport

def serveSegment : String → Option (List UInt8) → List ChannelData :=
  OpenStreamGrid.serveSegment .view

/-- `Buffer.concat` cuts the bytes off at the total length, or fills up with zeros. -/
def bufferConcat (chunks : List (List UInt8)) (totalLength : ℕ) : List UInt8 :=
  chunks.flatten.take totalLength ++ List.replicate (totalLength - chunks.flatten.length) 0

theorem bufferConcat_of_length (chunks : List (List UInt8)) :
    bufferConcat chunks (chunks.map List.length).sum = chunks.flatten := by
  unfold bufferConcat
  rw [← List.length_flatten, Nat.sub_self, List.replicate_zero, List.append_nil, List.take_length]

def receiveSegment (maxSegmentBytes : SegmentLimit) (segmentName : String) : SegmentReceiver where
  maxSegmentBytes := maxSegmentBytes
  segmentName := segmentName
  texts := {
    notAnObject := "DataChannel control message must be a JSON object"
    unserved := "Peer could not serve segment"
    invalidMetadata := "Invalid WebRTC segment response metadata"
    early := "Received WebRTC segment data before metadata"
    notBinary := "Invalid WebRTC segment chunk"
    tooLarge := "Invalid WebRTC segment chunk"
    exceeded := "WebRTC segment response exceeded declared size"
    mismatch := "WebRTC segment response length did not match metadata"
    failed := "DataChannel receive failed"
    closed := "DataChannel closed before the segment was complete"
    aborted := "WebRTC segment request aborted" }
  assemble chunks totalLength := some (bufferConcat chunks totalLength)
  assemble_eq chunks := congrArg some (bufferConcat_of_length chunks)

end WebRtcTransport

end OpenStreamGrid
