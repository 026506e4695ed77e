import OpenStreamGrid.Common.Types

/-!
# Peer sessions

The short-lived tokens that bind a REST caller to one peer of one broadcast. A
token is a payload and its HMAC with a dot between them; the service's secret is
inside `sign`, and `encode` and `decode` stand for the payload's JSON text in
base64url.
-/

namespace OpenStreamGrid

/-- White space as `\s` and `trim` know it. -/
def isJsSpace (c : Char) : Bool :=
  decide (0x09 ≤ c.toNat ∧ c.toNat ≤ 0x0D) || c.toNat = 0x20 || c.toNat = 0xA0 ||
    c.toNat = 0x1680 || decide (0x2000 ≤ c.toNat ∧ c.toNat ≤ 0x200A) || c.toNat = 0x2028 ||
    c.toNat = 0x2029 || c.toNat = 0x202F || c.toNat = 0x205F || c.toNat = 0x3000 ||
    c.toNat = 0xFEFF

def splitText (separator : Char) (value : String) : List String :=
  (value.toList.splitOn separator).map String.ofList

/-- The claims of a token; their version is always 1. -/
structure PeerSessionPayload where
  broadcastId : BroadcastId
  peerId : PeerId
  expiresAt : Timestamp
deriving DecidableEq

/-- Issues and verifies short-lived tokens bound to one tracker peer identity. -/
structure PeerSessionTokenService where
  ttlMs : ℕ
  /-- The base64url text of a payload's HMAC. -/
  sign : String → String
  /-- The base64url text of a payload's JSON. -/
  encode : PeerSessionPayload → String
  /-- What `JSON.parse` makes of a base64url text. -/
  decode : String → Option JsValue

namespace PeerSessionTokenService

variable (service : PeerSessionTokenService)

def decodePayload (encoded : String) : Option PeerSessionPayload :=
  match service.decode encoded with
  | some (.record fields) =>
      let payload := JsValue.record fields
      match (payload.get "v").number?, (payload.get "broadcastId").string?,
        (payload.get "peerId").string?, (payload.get "expiresAt").number? with
      | some v, some broadcastId, some peerId, some expiresAt =>
          if v ≠ .finite 1 ∨ broadcastId = "" ∨ peerId = "" then none
          else expiresAt.safeInteger?.map fun expiresAt => ⟨broadcastId, peerId, expiresAt⟩
      | _, _, _, _ => none
  | _ => none

/-- The claims of a fresh token, and the token. -/
def issue (now : Timestamp) (broadcastId : BroadcastId) (peerId : PeerId) :
    PeerSessionPayload × String :=
  let claims : PeerSessionPayload := ⟨broadcastId, peerId, now + service.ttlMs⟩
  let payload := service.encode claims
  (claims, payload ++ "." ++ service.sign payload)

/-- The payload and the signature of a token that has just these. -/
def tokenParts (token : String) : Option (String × String) :=
  match splitText '.' token with
  | [payload, suppliedSignature] =>
      if payload = "" ∨ suppliedSignature = "" then none else some (payload, suppliedSignature)
  | _ => none

def verify (now : Timestamp) (token : Option String) : Option PeerSessionPayload :=
  match token.bind tokenParts with
  | none => none
  | some (payload, suppliedSignature) =>
      if suppliedSignature ≠ service.sign payload then none
      else
        match service.decodePayload payload with
        | none => none
        | some claims => if claims.expiresAt ≤ now then none else some claims

/-- What is signed is read back. -/
def ReadsBack (claims : PeerSessionPayload) : Prop :=
  service.decodePayload (service.encode claims) = some claims

instance (claims : PeerSessionPayload) : Decidable (service.ReadsBack claims) :=
  inferInstanceAs (Decidable (_ = _))

variable {service}

/-- Everything a verified token has. -/
theorem verify_eq_some {now : Timestamp} {token : Option String} {claims : PeerSessionPayload}
    (h : service.verify now token = some claims) :
    ∃ text payload, token = some text ∧ tokenParts text = some (payload, service.sign payload) ∧
      service.decodePayload payload = some claims ∧ now < claims.expiresAt := by
  unfold verify at h
  cases hparts : token.bind tokenParts with
  | none =>
      rw [hparts] at h
      exact absurd h (by simp)
  | some parts =>
      obtain ⟨payload, suppliedSignature⟩ := parts
      obtain ⟨text, rfl, htext⟩ := Option.bind_eq_some_iff.mp hparts
      rw [hparts] at h
      dsimp only at h
      split_ifs at h with hsigned
      rw [not_not] at hsigned
      cases hpayload : service.decodePayload payload with
      | none =>
          rw [hpayload] at h
          exact absurd h (by simp)
      | some found =>
          rw [hpayload] at h
          dsimp only at h
          split_ifs at h with hexpired
          obtain rfl := Option.some.inj h
          rw [hsigned] at htext
          exact ⟨text, payload, rfl, htext, hpayload, lt_of_not_ge hexpired⟩

end PeerSessionTokenService

/-- The token of an `Authorization: Bearer …` header. -/
def bearerToken (authorization : Option String) : Option String :=
  authorization.bind fun text =>
    let scheme := text.toList.take 6
    let rest := text.toList.drop 6
    let token := rest.dropWhile isJsSpace
    if scheme.map Char.toLower = "bearer".toList ∧ token.length < rest.length ∧ token ≠ [] ∧
        token.all (fun c => !isJsSpace c) then some (String.ofList token)
    else none

end OpenStreamGrid
