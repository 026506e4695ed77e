import OpenStreamGrid.Lib.PlainData
import OpenStreamGrid.Lib.Slices

/-!
# Segments over a data channel

A segment crosses a data channel as a control message with its length and its
number of chunks, followed by the chunks. The transports of the Node peer and of
the browser each have a sender and a receiver of their own, alike but for the
texts of their errors, the kind of frame they send and the way they put the
chunks together.
-/

namespace OpenStreamGrid

def MAX_DATA_CHANNEL_CHUNK_BYTES : ℕ := 16 * 1024

/-- A receiver's limit: its constructor asks for a positive safe integer. -/
abbrev SegmentLimit := {bytes : ℕ // 0 < bytes ∧ bytes ≤ maxSafeInteger}

def DEFAULT_MAX_SEGMENT_BYTES : SegmentLimit := ⟨16 * 1024 * 1024, by decide⟩

/-- The data of a message: of a text, what `JSON.parse` makes of it unless it throws. -/
inductive ChannelData where
  | text (json : Option JsValue)
  | arrayBuffer (bytes : List UInt8)
  | view (bytes : List UInt8)
  | other

namespace ChannelData

/-- With the binary type of both transports, binary data arrives as an array buffer. -/
def delivered : ChannelData → ChannelData
  | .view bytes => .arrayBuffer bytes
  | data => data

def binary? : ChannelData → Option (List UInt8)
  | .arrayBuffer bytes | .view bytes => some bytes
  | _ => none

/-- The length and number of chunks a control message declares. -/
def declared? : ChannelData → Option (ℤ × ℤ)
  | .text (some message) => do
      let byteLength ← (message.get "byteLength").number?
      let chunkCount ← (message.get "chunkCount").number?
      return (← byteLength.integer?, ← chunkCount.integer?)
  | _ => none

end ChannelData

/-! ## Control messages -/

def segmentResponse (segmentName : String) (byteLength chunkCount : ℕ) : JsValue :=
  .record [("type", .string "segment_response"), ("segmentName", .string segmentName),
    ("byteLength", .number (.finite byteLength)), ("chunkCount", .number (.finite chunkCount))]

def segmentError (segmentName message : String) : JsValue :=
  .record [("type", .string "segment_error"), ("segmentName", .string segmentName),
    ("message", .string message)]

def segmentReceived (segmentName : String) : JsValue :=
  .record [("type", .string "segment_received"), ("segmentName", .string segmentName)]

/-- The metadata a receiver of the segment takes from a message, if it accepts it. -/
def acceptedMetadata? (maxSegmentBytes : ℕ) (segmentName : String) (message : JsValue) :
    Option (ℕ × ℕ) := do
  let byteLength ← (message.get "byteLength").number?.bind JsNumber.safeInteger?
  let chunkCount ← (message.get "chunkCount").number?.bind JsNumber.safeInteger?
  if (message.get "type").isText "segment_response" ∧
      (message.get "segmentName").isText segmentName ∧
      0 ≤ byteLength ∧ 0 ≤ chunkCount ∧ byteLength ≤ maxSegmentBytes ∧
      chunkCount ≤ ((maxSegmentBytes + MAX_DATA_CHANNEL_CHUNK_BYTES - 1) /
        MAX_DATA_CHANNEL_CHUNK_BYTES : ℕ) then
    some (byteLength.toNat, chunkCount.toNat)
  else none

theorem integer?_of_safeInteger? {x : JsNumber} {n : ℤ} (h : x.safeInteger? = some n) :
    x.integer? = some n := by
  cases x with
  | nan => cases h
  | infinity negative => cases h
  | finite value =>
      simp only [JsNumber.safeInteger?] at h
      split_ifs at h with hsafe
      simp only [JsNumber.integer?]
      rw [if_pos hsafe.1]
      exact h

theorem accepted_declared {maxSegmentBytes : ℕ} {segmentName : String} {message : JsValue}
    {metadata : ℕ × ℕ}
    (h : acceptedMetadata? maxSegmentBytes segmentName message = some metadata) :
    (ChannelData.text (some message)).declared? = some (↑metadata.1, ↑metadata.2) ∧
      metadata.1 ≤ maxSegmentBytes := by
  unfold acceptedMetadata? at h
  obtain ⟨byteLength, hbytes, h⟩ := Option.bind_eq_some_iff.mp h
  obtain ⟨chunkCount, hcount, h⟩ := Option.bind_eq_some_iff.mp h
  obtain ⟨x, hx, hbytes⟩ := Option.bind_eq_some_iff.mp hbytes
  obtain ⟨y, hy, hcount⟩ := Option.bind_eq_some_iff.mp hcount
  split_ifs at h with hok
  obtain ⟨-, -, hbytes0, hcount0, hmax, -⟩ := hok
  obtain rfl := Option.some.inj h
  dsimp only
  rw [Int.toNat_of_nonneg hbytes0, Int.toNat_of_nonneg hcount0]
  refine ⟨?_, by omega⟩
  simp only [ChannelData.declared?, hx, hy, Option.bind_eq_bind, Option.bind_some,
    integer?_of_safeInteger? hbytes, integer?_of_safeInteger? hcount]
  rfl

/-- An accepted message is a response, hence no error. -/
theorem accepted_response {maxSegmentBytes : ℕ} {segmentName : String} {message : JsValue}
    {metadata : ℕ × ℕ}
    (h : acceptedMetadata? maxSegmentBytes segmentName message = some metadata) :
    (message.get "type").isText "segment_error" = false ∧ ∃ fields, message = .record fields := by
  unfold acceptedMetadata? at h
  obtain ⟨byteLength, -, h⟩ := Option.bind_eq_some_iff.mp h
  obtain ⟨chunkCount, -, h⟩ := Option.bind_eq_some_iff.mp h
  split_ifs at h with hok
  have htype : (message.get "type").string? = some "segment_response" := of_decide_eq_true hok.1
  constructor
  · unfold JsValue.isText
    rw [htype]
    decide
  · cases message with
    | record fields => exact ⟨fields, rfl⟩
    | _ => cases htype

/-! ## A receiver's state -/

inductive ReceiveError where
  | message (text : String)
  /-- Thrown by `JSON.parse` or by sending. -/
  | engine
deriving DecidableEq

/-- What a receiver keeps, from its start to after its settling. -/
structure Reception where
  chunks : List (List UInt8)
  expectedBytes : Option ℕ
  expectedChunks : Option ℕ
  receivedBytes : ℕ
  /-- The listeners on the channel are in place. -/
  listening : Bool
  outcome : Option (Except ReceiveError (List UInt8))
  /-- The messages sent back. -/
  sent : List JsValue

namespace Reception

def start : Reception := ⟨[], none, none, 0, true, none, []⟩

def cleanup (r : Reception) : Reception := { r with listening := false }

/-- A promise keeps its first outcome. -/
def settle (r : Reception) (outcome : Except ReceiveError (List UInt8)) : Reception :=
  { r with outcome := some (r.outcome.getD outcome) }

def fail (r : Reception) (error : ReceiveError) : Reception := r.cleanup.settle (.error error)

def acknowledge (r : Reception) (segmentName : String) : Reception :=
  { r with sent := r.sent ++ [segmentReceived segmentName] }

def declare (r : Reception) (metadata : ℕ × ℕ) : Reception :=
  { r with expectedBytes := some metadata.1, expectedChunks := some metadata.2 }

def push (r : Reception) (chunk : List UInt8) : Reception :=
  { r with chunks := r.chunks ++ [chunk], receivedBytes := r.receivedBytes + chunk.length }

/-- Bytes held in chunks. -/
def buffered (r : Reception) : ℕ := (r.chunks.map List.length).sum

theorem buffered_push (r : Reception) (chunk : List UInt8) :
    (r.push chunk).buffered = r.buffered + chunk.length := by
  show ((r.chunks ++ [chunk]).map List.length).sum = (r.chunks.map List.length).sum + chunk.length
  rw [List.map_append, List.sum_append, List.map_singleton, List.sum_singleton]

theorem length_push (r : Reception) (chunk : List UInt8) :
    (r.push chunk).chunks.length = r.chunks.length + 1 := List.length_append

/-- The metadata has been declared and leaves room for one more chunk. -/
def Room (r : Reception) (chunk : List UInt8) : Prop :=
  ∃ bytes count, r.expectedBytes = some bytes ∧ r.expectedChunks = some count ∧
    chunk.length ≤ MAX_DATA_CHANNEL_CHUNK_BYTES ∧ r.chunks.length + 1 ≤ count ∧
    r.receivedBytes + chunk.length ≤ bytes

/-- A failure with at most one more chunk buffered. -/
def Rejects (r r' : Reception) : Prop :=
  ∃ (t : Reception) (error : ReceiveError), r' = t.fail error ∧ t.outcome = r.outcome ∧
    (t.chunks = r.chunks ∨ ∃ chunk : List UInt8, chunk.length ≤ MAX_DATA_CHANNEL_CHUNK_BYTES ∧
      t.chunks = r.chunks ++ [chunk])

theorem rejects_fail (r : Reception) (error : ReceiveError) : r.Rejects (r.fail error) :=
  ⟨r, error, rfl, rfl, Or.inl rfl⟩

/-- The segment is delivered. -/
def resolve (r : Reception) (segmentName : String) : Reception :=
  (r.acknowledge segmentName).cleanup.settle (.ok r.chunks.flatten)

end Reception

/-! ## Receivers -/

/-- What happens on the channel of a receiver. `sendable` says whether a message can be sent
back at that time. -/
inductive ChannelEvent where
  | message (data : ChannelData) (sendable : Bool)
  | error
  | close
  /-- With the reason, if it is an error. -/
  | abort (reason : Option ReceiveError)

def ChannelEvent.data? : ChannelEvent → Option ChannelData
  | .message data _ => some data
  | _ => none

/-- The texts of a receiver's errors. -/
structure ReceiverTexts where
  notAnObject : String
  unserved : String
  invalidMetadata : String
  /-- Data before metadata. -/
  early : String
  notBinary : String
  tooLarge : String
  exceeded : String
  mismatch : String
  failed : String
  closed : String
  aborted : String

/-- A receiver that asked for a segment; `assemble` puts the chunks together, given their total
length. -/
structure SegmentReceiver where
  maxSegmentBytes : SegmentLimit
  segmentName : String
  texts : ReceiverTexts
  assemble : List (List UInt8) → ℕ → Option (List UInt8)
  assemble_eq : ∀ chunks, assemble chunks (chunks.map List.length).sum = some chunks.flatten

namespace SegmentReceiver

def parseJsonObject (R : SegmentReceiver) : Option JsValue → Except ReceiveError JsValue
  | none => .error .engine
  | some (.record fields) => .ok (.record fields)
  | some _ => .error (.message R.texts.notAnObject)

def complete (R : SegmentReceiver) (r : Reception) (sendable : Bool) : Reception :=
  match r.expectedBytes, r.expectedChunks with
  | some expectedBytes, some expectedChunks =>
      if r.chunks.length ≠ expectedChunks then r
      else if r.receivedBytes ≠ expectedBytes then r.fail (.message R.texts.mismatch)
      else
        match R.assemble r.chunks r.receivedBytes with
        | none => r.fail .engine
        | some result =>
            if sendable = false then r.fail .engine
            else (r.acknowledge R.segmentName).cleanup.settle (.ok result)
  | _, _ => r

/-- A message that is a text. -/
def onText (R : SegmentReceiver) (r : Reception) (json : Option JsValue) (sendable : Bool) :
    Reception :=
  match R.parseJsonObject json with
  | .error error => r.fail error
  | .ok message =>
      if (message.get "type").isText "segment_error" then
        if sendable = false then r.fail .engine
        else (r.acknowledge R.segmentName).fail
          (.message ((message.get "message").string?.getD R.texts.unserved))
      else
        match acceptedMetadata? R.maxSegmentBytes R.segmentName message with
        | none => r.fail (.message R.texts.invalidMetadata)
        | some metadata => R.complete (r.declare metadata) sendable

/-- Any other message. -/
def onData (R : SegmentReceiver) (r : Reception) (data : ChannelData) (sendable : Bool) :
    Reception :=
  match r.expectedBytes, r.expectedChunks with
  | some expectedBytes, some expectedChunks =>
      match data.binary? with
      | none => r.fail (.message R.texts.notBinary)
      | some chunk =>
          if MAX_DATA_CHANNEL_CHUNK_BYTES < chunk.length then r.fail (.message R.texts.tooLarge)
          else if expectedChunks < (r.push chunk).chunks.length ∨
              expectedBytes < (r.push chunk).receivedBytes then
            (r.push chunk).fail (.message R.texts.exceeded)
          else R.complete (r.push chunk) sendable
  | _, _ => r.fail (.message R.texts.early)

def onMessage (R : SegmentReceiver) (r : Reception) (data : ChannelData) (sendable : Bool) :
    Reception :=
  match data with
  | .text json => R.onText r json sendable
  | data => R.onData r data sendable

def step (R : SegmentReceiver) (r : Reception) (event : ChannelEvent) : Reception :=
  if r.listening = false then r
  else
    match event with
    | .message data sendable => R.onMessage r data sendable
    | .error => r.fail (.message R.texts.failed)
    | .close => r.fail (.message R.texts.closed)
    | .abort reason => r.fail (reason.getD (.message R.texts.aborted))

/-- A receiver after a sequence of events. -/
def receive (R : SegmentReceiver) (events : List ChannelEvent) : Reception :=
  events.foldl R.step .start

end SegmentReceiver

/-! ## What a sender sends -/

/-- What is sent for a request, in order: `frame` is how a chunk is handed to the channel. -/
def serveSegment (frame : List UInt8 → ChannelData) (segmentName : String) :
    Option (List UInt8) → List ChannelData
  | none => [.text (some (segmentError segmentName "Segment not found"))]
  | some data =>
      .text (some (segmentResponse segmentName data.length
        ((data.length + MAX_DATA_CHANNEL_CHUNK_BYTES - 1) / MAX_DATA_CHANNEL_CHUNK_BYTES))) ::
        (slices MAX_DATA_CHANNEL_CHUNK_BYTES data).map frame

end OpenStreamGrid
