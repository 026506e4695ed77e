import OpenStreamGrid.Common.Types

/-!
# Peer addresses

The addresses a peer may join with: an HTTP base URL that does not point at a
reserved local endpoint, or the `webrtc:` URL of the peer itself. What the URL
constructor reads of an address is a parameter.
-/

namespace OpenStreamGrid

/-- What the checks read of a parsed address. -/
structure AddressUrl where
  protocol : String
  username : String
  password : String
  hostname : String
  pathname : String
  search : String
  hash : String
deriving DecidableEq

def hexDigitValue (c : Char) : Option ℕ :=
  if '0' ≤ c ∧ c ≤ '9' then some (c.toNat - '0'.toNat)
  else if 'a' ≤ c ∧ c ≤ 'f' then some (c.toNat - 'a'.toNat + 10)
  else if 'A' ≤ c ∧ c ≤ 'F' then some (c.toNat - 'A'.toNat + 10)
  else none

theorem hexDigitValue_digitChar {n : ℕ} (h : n < 16) :
    hexDigitValue (Nat.digitChar n) = some n := by
  revert h
  revert n
  decide

/-- The bytes of a text with its percent escapes resolved. -/
def percentDecodedBytes : List Char → Option (List UInt8)
  | [] => some []
  | '%' :: high :: low :: rest => do
      let high ← hexDigitValue high
      let low ← hexDigitValue low
      let bytes ← percentDecodedBytes rest
      return UInt8.ofNat (16 * high + low) :: bytes
  | '%' :: _ => none
  | c :: rest => (percentDecodedBytes rest).map (String.utf8EncodeChar c ++ ·)

/-- `decodeURIComponent`, which throws unless the escapes are UTF-8. -/
def decodeURIComponent (value : String) : Option String :=
  (percentDecodedBytes value.toList).bind fun bytes => String.fromUTF8? ⟨bytes.toArray⟩

def UNSAFE_PEER_HOSTNAMES : List String :=
  ["0.0.0.0", "::", "::1", "localhost", "metadata.google.internal"]

/-- One to four lowercase hexadecimal digits. -/
def hexGroup? (digits : List Char) : Option ℕ :=
  if digits.length = 0 ∨ digits.length > 4 ∨ digits.any (fun c => decide (c ∈ ['A', 'B', 'C',
      'D', 'E', 'F'])) then none
  else digits.foldlM (fun value c => (hexDigitValue c).map (16 * value + ·)) 0

/-- The IPv4 address inside an IPv4-mapped IPv6 address such as `::ffff:7f00:1`. -/
def mappedIpv4 (hostname : String) : Option String :=
  match hostname.toList.splitOn ':' with
  | [[], [], ['f', 'f', 'f', 'f'], high, low] => do
      let high ← hexGroup? high
      let low ← hexGroup? low
      return toString (high / 256) ++ "." ++ toString (high % 256) ++ "." ++
        toString (low / 256) ++ "." ++ toString (low % 256)
  | _ => none

/-- `hostname.replace(/^\[|\]$/g, "")` -/
def stripBrackets (hostname : List Char) : List Char :=
  let opened := if hostname.head? = some '[' then hostname.drop 1 else hostname
  if opened.getLast? = some ']' then opened.dropLast else opened

/-- `/^fe[89ab][0-9a-f]:/` -/
def isLinkLocal : List Char → Bool
  | 'f' :: 'e' :: third :: fourth :: ':' :: _ =>
      third ∈ ['8', '9', 'a', 'b'] && (hexDigitValue fourth).isSome
  | _ => false

/-- Why an address is no HTTP base URL of a peer. -/
def validatePeerHttpBaseUrl (url : AddressUrl) : Option String :=
  if url.protocol ≠ "http:" ∧ url.protocol ≠ "https:" then
    some "Peer address must use HTTP or HTTPS"
  else if url.username ≠ "" ∨ url.password ≠ "" then
    some "Peer address must not contain credentials"
  else
    let literal := String.ofList (stripBrackets (url.hostname.toList.map Char.toLower))
    let hostname := (mappedIpv4 literal).getD literal
    if hostname ∈ UNSAFE_PEER_HOSTNAMES ∨ ".localhost".toList <:+ hostname.toList ∨
        "127.".toList <+: hostname.toList ∨ "169.254.".toList <+: hostname.toList ∨
        isLinkLocal hostname.toList then
      some "Peer address targets a reserved local endpoint"
    else if url.search ≠ "" ∨ url.hash ≠ "" then
      some "Peer address must not contain a query or fragment"
    else none

end OpenStreamGrid
