import OpenStreamGrid.Common.PeerAddress
import OpenStreamGrid.Tracker.BroadcastParts
import OpenStreamGrid.Tracker.InventoryLimits
import OpenStreamGrid.Tracker.PeerSessions

/-!
# What the REST routes read of a request

The checks on a request's path and JSON body, in the order the routes make them,
each with the error it throws. A body is its size and what `JSON.parse` makes of
its text.
-/

namespace OpenStreamGrid

/-- An error that becomes the response. -/
structure RequestError where
  message : String
  statusCode : ℕ := 400
  retryAfter : Option String := none
deriving DecidableEq

def MAX_BODY_BYTES : ℕ := 1000000

structure RequestBody where
  bytes : ℕ
  json : Option JsValue

/-- The fields of a JSON object. -/
abbrev JsonObject := List (String × JsValue)

def JsonObject.get (body : JsonObject) (key : String) : JsValue := (JsValue.record body).get key

def readJson (body : RequestBody) : Except RequestError JsonObject :=
  if body.bytes > MAX_BODY_BYTES then
    .error { message := "Request body is too large", statusCode := 413 }
  else if body.bytes = 0 then .ok []
  else
    match body.json with
    | some (.record fields) => .ok fields
    | _ => .error { message := "Request body must be a JSON object" }

def decodedPathComponent (value : String) : Except RequestError String :=
  match decodeURIComponent value with
  | some component => .ok component
  | none => .error { message := "URL path contains invalid percent encoding" }

/-! ## Fields -/

def MAX_PEER_ID_LENGTH : ℕ := 128
def MAX_PEER_ADDRESS_LENGTH : ℕ := 2048

def boundedString (value key : String) (maxLength : ℕ) : Except RequestError String :=
  if utf16Length value > maxLength then
    .error { message := "'" ++ key ++ "' must be at most " ++ toString maxLength ++ " characters" }
  else .ok value

/-- `\p{Cc}` -/
def isControl (c : Char) : Bool :=
  decide (c.toNat < 0x20) || decide (0x7F ≤ c.toNat ∧ c.toNat ≤ 0x9F)

def peerIdentifier (value : String) : Except RequestError PeerId :=
  match boundedString value "id" MAX_PEER_ID_LENGTH with
  | .error e => .error e
  | .ok value =>
      if value = "" ∨ value.toList.any (fun c => isJsSpace c || isControl c) then
        .error { message := "'id' must not contain whitespace or control characters" }
      else .ok value

theorem plainId_of_peerIdentifier {value : String} {id : PeerId}
    (h : peerIdentifier value = .ok id) : PlainId id := by
  unfold peerIdentifier at h
  cases hbound : boundedString value "id" MAX_PEER_ID_LENGTH with
  | error e =>
      rw [hbound] at h
      exact absurd h (by simp)
  | ok bounded =>
      rw [hbound] at h
      dsimp only at h
      split_ifs at h with hbad
      obtain rfl := Except.ok.inj h
      rw [not_or] at hbad
      intro hnul
      exact hbad.2 (List.any_eq_true.mpr ⟨'\x00', hnul, by decide⟩)

def JsonObject.requiredString (body : JsonObject) (key : String) : Except RequestError String :=
  match body.get key with
  | .string value =>
      if value.toList.all isJsSpace then
        .error { message := "'" ++ key ++ "' must be a non-empty string" }
      else .ok value
  | _ => .error { message := "'" ++ key ++ "' must be a non-empty string" }

def optionalNumber (body : JsonObject) (key : String) : Except RequestError (Option ℚ) :=
  match body.get key with
  | .undefined => .ok none
  | .number (.finite value) => .ok (some value)
  | _ => .error { message := "'" ++ key ++ "' must be a finite number" }

def optionalNonNegativeNumber (body : JsonObject) (key : String) :
    Except RequestError (Option ℚ) := do
  let value ← optionalNumber body key
  if value.any (fun value => decide (value < 0)) then
    .error { message := "'" ++ key ++ "' must be non-negative" }
  else return value

def optionalUnitInterval (body : JsonObject) (key : String) :
    Except RequestError (Option ℚ) := do
  let value ← optionalNumber body key
  if value.any (fun value => decide (value < 0 ∨ value > 1)) then
    .error { message := "'" ++ key ++ "' must be between 0 and 1" }
  else return value

def optionalBoolean (body : JsonObject) (key : String) : Except RequestError (Option Bool) :=
  match body.get key with
  | .undefined => .ok none
  | .boolean value => .ok (some value)
  | _ => .error { message := "'" ++ key ++ "' must be a boolean" }

/-! ## Metadata -/

def MAX_METADATA_ENTRIES : ℕ := 32
def MAX_METADATA_VALUE_LENGTH : ℕ := 1024
def MAX_METADATA_TOTAL_LENGTH : ℕ := 4096

/-- `METADATA_KEY_PATTERN` -/
def isMetadataKey (key : String) : Bool :=
  decide (1 ≤ key.toList.length ∧ key.toList.length ≤ 64) &&
    key.toList.all fun c => c.isAlphanum || c ∈ ['_', '.', ':', '-']

/-- One entry after the others; assigning `__proto__` a string does nothing. -/
def addMetadata (read : Metadata × ℕ) (entry : String × JsValue) :
    Except RequestError (Metadata × ℕ) :=
  match entry.2 with
  | .string item =>
      if ¬ isMetadataKey entry.1 then
        .error
          { message := "'metadata' keys must be 1 to 64 letters, digits, '_', '.', ':' or '-'" }
      else if utf16Length item > MAX_METADATA_VALUE_LENGTH then
        .error
          { message := "'metadata' values must be at most " ++
              toString MAX_METADATA_VALUE_LENGTH ++ " characters" }
      else
        .ok (if entry.1 = "__proto__" then read.1 else read.1.set entry.1 item,
          read.2 + utf16Length entry.1 + utf16Length item)
  | _ => .error { message := "'metadata' must be an object of strings" }

def optionalMetadata (body : JsonObject) : Except RequestError (Option Metadata) :=
  match body.get "metadata" with
  | .undefined => .ok none
  | .record entries =>
      if entries.length > MAX_METADATA_ENTRIES then
        .error
          { message := "'metadata' must have at most " ++ toString MAX_METADATA_ENTRIES ++
              " entries" }
      else
        match entries.foldlM addMetadata (∅, 0) with
        | .error e => .error e
        | .ok (metadata, totalLength) =>
            if totalLength > MAX_METADATA_TOTAL_LENGTH then
              .error
                { message := "'metadata' must total at most " ++
                    toString MAX_METADATA_TOTAL_LENGTH ++ " characters" }
            else .ok (some metadata)
  | _ => .error { message := "'metadata' must be an object of strings" }

/-! ## Whole payloads -/

def readRegistration (body : JsonObject) : Except RequestError BroadcastRegistration := do
  let metadata ← optionalMetadata body
  let id ← body.requiredString "id"
  let playlistUrl ← body.requiredString "playlistUrl"
  return ⟨id, playlistUrl, metadata⟩

/-- The segment IDs of a body value, or nothing unless it is a valid report list. -/
def segmentIdListOf (value : JsValue) : Option (List SegmentId) :=
  value.array?.bind fun elements => (elements.mapM JsValue.string?).bind segmentIdList

def readHeartbeat (body : JsonObject) : Except RequestError PeerHeartbeat := do
  let latencyMs ← optionalNonNegativeNumber body "latencyMs"
  let uploadBandwidthBps ← optionalNonNegativeNumber body "uploadBandwidthBps"
  let successRate ← optionalUnitInterval body "successRate"
  return ⟨latencyMs, uploadBandwidthBps, successRate⟩

def PeerTrafficStatKey.text : PeerTrafficStatKey → String
  | .bytesDownloadedP2P => "bytesDownloadedP2P"
  | .bytesDownloadedOrigin => "bytesDownloadedOrigin"
  | .bytesUploadedP2P => "bytesUploadedP2P"
  | .p2pRequests => "p2pRequests"
  | .p2pSuccesses => "p2pSuccesses"
  | .p2pFailures => "p2pFailures"
  | .originRequests => "originRequests"
  | .integrityFailures => "integrityFailures"
  | .fallbacks => "fallbacks"
  | .segmentsCached => "segmentsCached"

/-- Validates an unknown value as a complete peer traffic snapshot. -/
def parsePeerTrafficStats (value : JsValue) : Except String (TrafficRecord JsNumber) :=
  match value with
  | .record fields =>
      let metric (key : PeerTrafficStatKey) : JsValue := (JsValue.record fields).get key.text
      let valid (value : JsValue) : Bool := !value.isUndefined && value.optionalNonNegativeFinite
      match peerTrafficStatKeys.find? fun key => !valid (metric key) with
      | some key =>
          .error ("Peer traffic stat '" ++ key.text ++ "' must be a non-negative number")
      | none => .ok fun key => ((metric key).number?).getD .nan
  | _ => .error "Peer traffic stats must be an object"

def readStats (body : JsonObject) : Except RequestError (TrafficRecord JsNumber) :=
  match parsePeerTrafficStats (body.get "stats") with
  | .error message => .error { message }
  | .ok stats => .ok stats

def readFailureReport (body : JsonObject) : Except RequestError PeerFailureReport :=
  match [FailureReason.connection, .timeout, .integrity, .http].find? fun reason =>
    (body.get "reason").isText reason.text with
  | none => .error { message := "'reason' is invalid" }
  | some reason => (body.requiredString "reporterId").map fun reporterId => ⟨reporterId, reason⟩

/-- Why an address is not one the peer may join with. -/
def validatePeerAddress (parseUrl : String → Option AddressUrl) (address : String)
    (peerId : PeerId) : Option String :=
  match parseUrl address with
  | none => some "Invalid URL"
  | some url =>
      if url.protocol = "http:" ∨ url.protocol = "https:" then validatePeerHttpBaseUrl url
      else if url.protocol ≠ "webrtc:" then some "Peer address is invalid"
      else
        match decodeURIComponent url.hostname with
        | none => some "URI malformed"
        | some hostname =>
            if hostname ≠ peerId ∨ url.pathname ≠ "" ∨ url.search ≠ "" ∨ url.hash ≠ "" then
              some "Peer address is invalid"
            else none

def readJoin (parseUrl : String → Option AddressUrl) (body : JsonObject) :
    Except RequestError PeerJoinRequest := do
  let uploadBandwidthBps ← optionalNonNegativeNumber body "uploadBandwidthBps"
  let metadata ← optionalMetadata body
  let id ← (body.requiredString "id") >>= peerIdentifier
  let address ← (body.requiredString "address") >>=
    fun address => boundedString address "address" MAX_PEER_ADDRESS_LENGTH
  match validatePeerAddress parseUrl address id with
  | some message => .error { message }
  | none => return ⟨id, address, uploadBandwidthBps.map Rat.toNNRat, metadata⟩

/-- Only plain IDs join. -/
theorem plainId_of_readJoin {parseUrl : String → Option AddressUrl} {body : JsonObject}
    {join : PeerJoinRequest} (h : readJoin parseUrl body = .ok join) : PlainId join.id := by
  unfold readJoin at h
  simp only [bind, Except.bind] at h
  cases hbandwidth : optionalNonNegativeNumber body "uploadBandwidthBps" with
  | error e => simp [hbandwidth] at h
  | ok bandwidth =>
      cases hmetadata : optionalMetadata body with
      | error e => simp [hbandwidth, hmetadata] at h
      | ok metadata =>
          cases hread : body.requiredString "id" with
          | error e => simp [hbandwidth, hmetadata, hread] at h
          | ok value =>
              cases hid : peerIdentifier value with
              | error e => simp [hbandwidth, hmetadata, hread, hid] at h
              | ok id =>
                  simp only [hbandwidth, hmetadata, hread, hid] at h
                  split at h
                  · exact absurd h (by simp)
                  · split at h
                    · exact absurd h (by simp)
                    · obtain rfl := Except.ok.inj h
                      exact plainId_of_peerIdentifier hid

end OpenStreamGrid
