import OpenStreamGrid.Common.SegmentFraming

/-!
# Segments over the browser's data channels

The sender and the receiver of `BrowserWebRtcPeer`.
-/

namespace OpenStreamGrid

namespace BrowserWebRtcPeer

def serveSegment : String → Option (List UInt8) → List ChannelData :=
  OpenStreamGrid.serveSegment .arrayBuffer

/-- Writes a chunk at the offset, if there is space for it. -/
def setBytes? (result chunk : List UInt8) (offset : ℕ) : Option (List UInt8) :=
  if offset + chunk.length ≤ result.length then
    some (result.take offset ++ chunk ++ result.drop (offset + chunk.length))
  else none

def setChunks? : List (List UInt8) → List UInt8 → ℕ → Option (List UInt8)
  | [], result, _ => some result
  | chunk :: chunks, result, offset =>
      (setBytes? result chunk offset).bind fun result =>
        setChunks? chunks result (offset + chunk.length)

/-- The bytes written so far are followed by space for the chunks still to write. -/
theorem setChunks?_append (chunks : List (List UInt8)) : ∀ written : List UInt8,
    setChunks? chunks (written ++ List.replicate (chunks.map List.length).sum 0) written.length =
      some (written ++ chunks.flatten) := by
  induction chunks with
  | nil =>
      intro written
      rfl
  | cons chunk chunks ih =>
      intro written
      have hspace : ((chunk :: chunks).map List.length).sum =
          chunk.length + (chunks.map List.length).sum := by
        rw [List.map_cons, List.sum_cons]
      have hset : setBytes?
          (written ++ List.replicate ((chunk :: chunks).map List.length).sum 0) chunk
          written.length =
          some ((written ++ chunk) ++ List.replicate (chunks.map List.length).sum 0) := by
        unfold setBytes?
        rw [if_pos]
        · rw [List.take_left, ← List.drop_drop, List.drop_left, hspace, List.drop_replicate,
            Nat.add_sub_cancel_left]
        · rw [List.length_append, List.length_replicate, hspace]
          omega
      show (setBytes? _ chunk written.length).bind _ = _
      rw [hset, Option.bind_some, ← List.length_append, ih, List.append_assoc, List.flatten_cons]

def receiveSegment (maxSegmentBytes : SegmentLimit) (segmentId : String) : SegmentReceiver where
  maxSegmentBytes := maxSegmentBytes
  segmentName := segmentId
  texts := {
    notAnObject := "DataChannel control message must be an object"
    unserved := "Segment unavailable"
    invalidMetadata := "Invalid WebRTC response metadata"
    early := "Invalid WebRTC response chunk"
    notBinary := "Invalid WebRTC response chunk"
    tooLarge := "WebRTC chunk too large"
    exceeded := "WebRTC response exceeded declared size"
    mismatch := "WebRTC response length mismatch"
    failed := "DataChannel receive failed"
    closed := "DataChannel closed before response"
    aborted := "WebRTC request aborted" }
  assemble chunks receivedBytes := setChunks? chunks (List.replicate receivedBytes 0) 0
  assemble_eq chunks := setChunks?_append chunks []

end BrowserWebRtcPeer

end OpenStreamGrid
