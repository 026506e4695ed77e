import OpenStreamGrid.Lib.CounterMap
import OpenStreamGrid.Lib.TransitionSystem
import OpenStreamGrid.Tracker.HubEvents

/-!
# Connection slots

The hub limits the WebSocket connections of each client address. An upgrade
reserves a slot before the handshake; the slot is released once, by an error or
the end of the raw socket or, if the handshake succeeds, by the end of the
WebSocket.
-/

namespace OpenStreamGrid

/-! ## The client's address -/

def isDigits (text : List Char) : Bool := !text.isEmpty && text.all Char.isDigit

/-- The pattern `:\d+`. -/
def isPort : List Char → Bool
  | ':' :: digits => isDigits digits
  | _ => false

/-- The pattern `\d{1,3}(\.\d{1,3}){3}`. -/
def isDottedQuad (text : List Char) : Bool :=
  (text.splitOn '.').length = 4 &&
    (text.splitOn '.').all fun group => isDigits group && group.length ≤ 3

/-- What stands between brackets, with or without a port behind. -/
def bracketed? : List Char → Option (List Char)
  | '[' :: rest =>
      let address := rest.takeWhile (· != ']')
      match rest.dropWhile (· != ']') with
      | ']' :: tail => if !address.isEmpty && (tail.isEmpty || isPort tail) then some address else none
      | _ => none
  | _ => none

def ipv4WithPort? (hop : List Char) : Option (List Char) :=
  let address := hop.takeWhile (· != ':')
  if isDottedQuad address && isPort (hop.dropWhile (· != ':')) then some address else none

/-- Strips the port from `a.b.c.d:port` and `[ipv6]:port`. -/
def withoutPort (hop : List Char) : List Char :=
  ((bracketed? hop).orElse fun _ => ipv4WithPort? hop).getD hop

def trim (text : List Char) : List Char :=
  ((text.dropWhile isWhiteSpace).reverse.dropWhile isWhiteSpace).reverse

/-- The headers and the socket of an upgrade request. A remote address is never empty. -/
structure UpgradeRequest where
  pathname : String
  origin : Option String
  /-- The session token is valid and its peer is stored. -/
  authenticated : Bool
  forwardedFor : Option String
  remoteAddress : Option {address : String // address ≠ ""}

/-- The address behind so many trusted proxies. -/
def clientAddress (request : UpgradeRequest) (trustedProxyHops : ℕ) : String :=
  let socketAddress := (request.remoteAddress.map Subtype.val).getD "unknown"
  if trustedProxyHops = 0 then socketAddress
  else
    let hops := (((request.forwardedFor.getD "").toList.splitOn ',').map
      fun hop => withoutPort (trim hop)).filter (· ≠ [])
    let hop :=
      if trustedProxyHops ≤ hops.length then hops[hops.length - trustedProxyHops]? else none
    ((hop.orElse fun _ => hops.head?).map String.ofList).getD socketAddress

/-! ## Slots -/

abbrev ConnectionId := ℕ

/-- The raw socket of an upgrade. -/
structure RawSocket where
  errored : Bool
  closed : Bool
deriving DecidableEq

/-- An upgrade after its reservation: `reserved` once the slot is released or has passed to the
WebSocket, `listening` while errors and the end of the raw socket are heard. -/
structure Upgrade where
  clientIp : String
  reserved : Bool
  listening : Bool
  raw : RawSocket
deriving DecidableEq

structure UpgradesRejected where
  origin : ℕ
  auth : ℕ
  connectionLimit : ℕ
deriving DecidableEq

structure ConnectionOptions where
  allowedOrigins : List String
  trustProxyHops : ℕ
  maxConnectionsPerIp : Option ℕ

def MAX_CONNECTIONS_PER_IP : ℕ := 20

namespace ConnectionOptions

def connectionLimit (options : ConnectionOptions) : ℕ :=
  options.maxConnectionsPerIp.getD MAX_CONNECTIONS_PER_IP

/-- Non-browser clients send no origin and are left to the session's check. -/
def isOriginAllowed (options : ConnectionOptions) (origin : Option String) : Bool :=
  options.allowedOrigins.isEmpty || origin.all fun origin => decide (origin ∈ options.allowedOrigins)

end ConnectionOptions

structure ConnectionSlots where
  connectionsPerIp : OrderedMap String ℕ
  /-- Every upgrade that got a reservation. -/
  upgrades : OrderedMap ConnectionId Upgrade
  /-- The addresses of the live sockets. -/
  connectionIps : OrderedMap ConnectionId String
  upgradesRejected : UpgradesRejected
  /-- Upgrade requests are handled. -/
  started : Bool
  /-- The connections whose slots were released, in order. -/
  releases : List ConnectionId
deriving DecidableEq

inductive ConnectionEvent where
  | upgrade (id : ConnectionId) (request : UpgradeRequest)
  | rawError (id : ConnectionId)
  | rawClose (id : ConnectionId)
  /-- The handshake succeeds and the WebSocket library calls back. -/
  | upgraded (id : ConnectionId)
  /-- A WebSocket has closed. -/
  | closed (id : ConnectionId)
  | stop

namespace ConnectionSlots

def new : ConnectionSlots := ⟨∅, ∅, ∅, ⟨0, 0, 0⟩, true, []⟩

def releaseSlot (s : ConnectionSlots) (id : ConnectionId) (clientIp : String) : ConnectionSlots :=
  { s with
    connectionsPerIp := CounterMap.decrement s.connectionsPerIp clientIp
    releases := s.releases ++ [id] }

def handleUpgrade (options : ConnectionOptions) (s : ConnectionSlots) (id : ConnectionId)
    (request : UpgradeRequest) : ConnectionSlots :=
  if request.pathname ≠ "/ws" then s
  else if options.isOriginAllowed request.origin = false then
    { s with upgradesRejected := { s.upgradesRejected with origin := s.upgradesRejected.origin + 1 } }
  else if request.authenticated = false then
    { s with upgradesRejected := { s.upgradesRejected with auth := s.upgradesRejected.auth + 1 } }
  else
    let clientIp := clientAddress request options.trustProxyHops
    if options.connectionLimit ≤ CounterMap.count s.connectionsPerIp clientIp then
      { s with
        upgradesRejected :=
          { s.upgradesRejected with connectionLimit := s.upgradesRejected.connectionLimit + 1 } }
    else
      { s with
        connectionsPerIp := CounterMap.increment s.connectionsPerIp clientIp
        upgrades := s.upgrades.set id ⟨clientIp, false, true, ⟨false, false⟩⟩ }

/-- What a listener on the raw socket does, the first time. -/
def releaseReservation (s : ConnectionSlots) (id : ConnectionId) (found : Upgrade) :
    ConnectionSlots :=
  if found.listening = false ∨ found.reserved = true then
    { s with upgrades := s.upgrades.set id found }
  else
    { s with upgrades := s.upgrades.set id { found with reserved := true } }.releaseSlot id
      found.clientIp

/-- The handshake's callback: the slot is the WebSocket's from now on. -/
def completeUpgrade (s : ConnectionSlots) (id : ConnectionId) (found : Upgrade) : ConnectionSlots :=
  { s with
    upgrades := s.upgrades.set id { found with reserved := true, listening := false }
    connectionIps := s.connectionIps.set id found.clientIp }

def removeSocket (s : ConnectionSlots) (id : ConnectionId) : ConnectionSlots :=
  let clientIp := s.connectionIps.get? id
  let s := { s with connectionIps := s.connectionIps.delete id }
  match clientIp with
  | none => s
  | some clientIp => if clientIp = "" then s else s.releaseSlot id clientIp

/-- `completes` says whether the library completes a handshake on a raw socket. -/
def step (options : ConnectionOptions) (completes : RawSocket → Bool) (s : ConnectionSlots) :
    ConnectionEvent → Option ConnectionSlots
  | .upgrade id request =>
      if s.started ∧ id ∉ s.upgrades then some (s.handleUpgrade options id request) else none
  | .rawError id => (s.upgrades.get? id).map fun found =>
      s.releaseReservation id { found with raw := { found.raw with errored := true } }
  | .rawClose id => (s.upgrades.get? id).map fun found =>
      s.releaseReservation id { found with raw := { found.raw with closed := true } }
  | .upgraded id => do
      let found ← s.upgrades.get? id
      if found.listening ∧ completes found.raw then some (s.completeUpgrade id found) else none
  | .closed id => some (s.removeSocket id)
  | .stop => some { s with started := false }

def system (options : ConnectionOptions) (completes : RawSocket → Bool) :
    TransitionSystem ConnectionSlots ConnectionEvent where
  init s := s = .new
  step := step options completes

/-- The share of one upgrade in the reservations of an address. -/
def pendingAt (ip : String) (found : Upgrade) : ℕ :=
  if found.reserved = false ∧ found.clientIp = ip then 1 else 0

/-- Reservations of an address. -/
def pending (s : ConnectionSlots) (ip : String) : ℕ := s.upgrades.sumValues (pendingAt ip)

/-- Live sockets of an address. -/
def live (s : ConnectionSlots) (ip : String) : ℕ :=
  s.connectionIps.sumValues fun clientIp => if clientIp = ip then 1 else 0

/-! ## The address is never empty -/

theorem ofList_ne_empty {text : List Char} (h : text ≠ []) : String.ofList text ≠ "" := by
  intro hempty
  apply h
  have := congrArg String.toList hempty
  rwa [String.toList_ofList] at this

theorem clientAddress_ne_empty (request : UpgradeRequest) (trustedProxyHops : ℕ) :
    clientAddress request trustedProxyHops ≠ "" := by
  have hsocket : (request.remoteAddress.map Subtype.val).getD "unknown" ≠ "" := by
    cases request.remoteAddress with
    | none => decide
    | some address => exact address.2
  unfold clientAddress
  dsimp only
  by_cases hdirect : trustedProxyHops = 0
  · rw [if_pos hdirect]
    exact hsocket
  rw [if_neg hdirect]
  generalize hhops : (((request.forwardedFor.getD "").toList.splitOn ',').map
    fun hop => withoutPort (trim hop)).filter (· ≠ []) = hops
  have hne : ∀ hop ∈ hops, hop ≠ [] := by
    intro hop hmem
    rw [← hhops] at hmem
    exact of_decide_eq_true (List.mem_filter.mp hmem).2
  generalize hhop : (Option.orElse (if trustedProxyHops ≤ hops.length then
    hops[hops.length - trustedProxyHops]? else none) fun _ => hops.head?) = hop
  cases hop with
  | none => exact hsocket
  | some hop =>
      refine ofList_ne_empty (hne hop ?_)
      split_ifs at hhop
      · cases hindex : hops[hops.length - trustedProxyHops]? with
        | none =>
            rw [hindex] at hhop
            exact List.mem_of_head? hhop
        | some found =>
            rw [hindex] at hhop
            obtain rfl := Option.some.inj hhop
            exact List.mem_of_getElem? hindex
      · exact List.mem_of_head? hhop

/-! ## The balance -/

/-- What holds of one upgrade. -/
structure Accounted (s : ConnectionSlots) (id : ConnectionId) (found : Upgrade) : Prop where
  named : found.clientIp ≠ ""
  /-- A slot is given back before the handshake's end only if the raw socket has ended. -/
  heard : found.reserved = true → found.listening = true →
    found.raw.errored = true ∨ found.raw.closed = true
  settled : found.listening = false → found.reserved = true
  live : id ∈ s.connectionIps → found.listening = false
  /-- A released connection holds no slot any more. -/
  released : id ∈ s.releases → found.reserved = true ∧ id ∉ s.connectionIps

structure Balanced (limit : ℕ) (s : ConnectionSlots) : Prop where
  counted : ∀ ip, CounterMap.count s.connectionsPerIp ip = s.pending ip + s.live ip
  within : ∀ ip, CounterMap.count s.connectionsPerIp ip ≤ limit
  tight : CounterMap.Tight s.connectionsPerIp
  accounted : ∀ id found, s.upgrades.get? id = some found → s.Accounted id found
  known : ∀ id, id ∈ s.connectionIps ∨ id ∈ s.releases → id ∈ s.upgrades
  named : ∀ id ip, s.connectionIps.get? id = some ip → ip ≠ ""
  once : s.releases.Nodup

variable {s s' : ConnectionSlots} {limit : ℕ} {id : ConnectionId} {found : Upgrade}

/-! ### What the operations do to the sums -/

theorem pendingAt_reserved (h : found.reserved = true) (ip : String) : pendingAt ip found = 0 := by
  unfold pendingAt
  rw [h]
  exact if_neg fun hfree => absurd hfree.1 (by decide)

theorem pendingAt_free (h : found.reserved = false) (ip : String) :
    pendingAt ip found = if ip = found.clientIp then 1 else 0 := by
  unfold pendingAt
  by_cases hip : found.clientIp = ip
  · rw [if_pos ⟨h, hip⟩, if_pos hip.symm]
  · rw [if_neg fun hfree => hip hfree.2, if_neg fun heq => hip heq.symm]

theorem pending_set {found₀ : Upgrade} (found : Upgrade)
    (hget : s.upgrades.get? id = some found₀) (ip : String) :
    pending { s with upgrades := s.upgrades.set id found } ip + pendingAt ip found₀ =
      s.pending ip + pendingAt ip found :=
  OrderedMap.sumValues_set_of_get? (pendingAt ip) hget

/-- An upgrade that holds its slot is among those counted. -/
theorem pendingAt_le (hget : s.upgrades.get? id = some found) (ip : String) :
    pendingAt ip found ≤ s.pending ip := by
  have h := OrderedMap.sumValues_delete_of_get? (pendingAt ip) hget
  unfold pending
  omega

theorem live_delete {clientIp : String} (hget : s.connectionIps.get? id = some clientIp)
    (ip : String) :
    live { s with connectionIps := s.connectionIps.delete id } ip + (if clientIp = ip then 1 else 0)
      = s.live ip :=
  OrderedMap.sumValues_delete_of_get? (fun clientIp => if clientIp = ip then 1 else 0) hget

theorem live_set (clientIp : String) (hid : id ∉ s.connectionIps) (ip : String) :
    live { s with connectionIps := s.connectionIps.set id clientIp } ip =
      s.live ip + if clientIp = ip then 1 else 0 :=
  OrderedMap.sumValues_set_of_not_mem _ hid

/-! ### The operations keep the balance -/

theorem Accounted.congr (h : s.Accounted id found)
    (hips : id ∈ s'.connectionIps → id ∈ s.connectionIps)
    (hreleases : id ∈ s'.releases → id ∈ s.releases) : s'.Accounted id found where
  named := h.named
  heard := h.heard
  settled := h.settled
  live hid := h.live (hips hid)
  released hid := ⟨(h.released (hreleases hid)).1, fun hlive =>
    (h.released (hreleases hid)).2 (hips hlive)⟩

theorem balanced_new : Balanced limit new where
  counted ip := rfl
  within ip := Nat.zero_le limit
  tight := CounterMap.tight_empty
  accounted id found hfound := by cases hfound
  known id hid := by
    rcases hid with hid | hid
    · exact absurd hid (OrderedMap.not_mem_empty id)
    · cases hid
  named id ip hip := by cases hip
  once := List.nodup_nil

/-- Nothing but the statistics, or whether requests are handled. -/
theorem Balanced.unaffected (hb : Balanced limit s) (rejected : UpgradesRejected)
    (started : Bool) : Balanced limit { s with upgradesRejected := rejected, started := started } where
  counted := hb.counted
  within := hb.within
  tight := hb.tight
  accounted id found hfound := (hb.accounted id found hfound).congr (fun h => h) fun h => h
  known := hb.known
  named := hb.named
  once := hb.once

/-- **A reservation** below the limit. -/
theorem Balanced.reserve (hb : Balanced limit s) (hid : id ∉ s.upgrades) {clientIp : String}
    (hname : clientIp ≠ "") (hlimit : CounterMap.count s.connectionsPerIp clientIp < limit) :
    Balanced limit { s with
      connectionsPerIp := CounterMap.increment s.connectionsPerIp clientIp
      upgrades := s.upgrades.set id ⟨clientIp, false, true, ⟨false, false⟩⟩ } where
  counted ip := by
    have hpending : pending { s with
        connectionsPerIp := CounterMap.increment s.connectionsPerIp clientIp
        upgrades := s.upgrades.set id ⟨clientIp, false, true, ⟨false, false⟩⟩ } ip =
        s.pending ip + pendingAt ip ⟨clientIp, false, true, ⟨false, false⟩⟩ :=
      OrderedMap.sumValues_set_of_not_mem (pendingAt ip) hid
    have hcounted := hb.counted ip
    rw [hpending, pendingAt_free rfl]
    show CounterMap.count (CounterMap.increment s.connectionsPerIp clientIp) ip = _ + s.live ip
    rw [CounterMap.count_increment]
    dsimp only
    omega
  within ip := by
    have hwithin := hb.within ip
    show CounterMap.count (CounterMap.increment s.connectionsPerIp clientIp) ip ≤ limit
    rw [CounterMap.count_increment]
    split_ifs with hip
    · rw [hip]
      exact hlimit
    · exact hwithin
  tight := hb.tight.increment
  accounted id' found' hfound := by
    have hfresh : id ∉ s.connectionIps ∧ id ∉ s.releases :=
      ⟨fun h => hid (hb.known id (Or.inl h)), fun h => hid (hb.known id (Or.inr h))⟩
    dsimp only at hfound
    rw [OrderedMap.get?_set] at hfound
    split_ifs at hfound with hid'
    · obtain rfl := Option.some.inj hfound
      subst hid'
      refine ⟨hname, fun h => Bool.noConfusion h, fun h => Bool.noConfusion h, ?_, ?_⟩
      · exact fun h => absurd h hfresh.1
      · exact fun h => absurd h hfresh.2
    · exact (hb.accounted id' found' hfound).congr (fun h => h) fun h => h
  known id' hid' := OrderedMap.mem_set.mpr (Or.inl (hb.known id' hid'))
  named := hb.named
  once := hb.once

/-- A raw socket that ends with its slot released or passed on: only its record changes. -/
theorem Balanced.setUpgrade (hb : Balanced limit s) {found₀ : Upgrade}
    (hget : s.upgrades.get? id = some found₀) (hreserved : found.reserved = found₀.reserved)
    (hip : found.clientIp = found₀.clientIp) (haccounted : s.Accounted id found) :
    Balanced limit { s with upgrades := s.upgrades.set id found } where
  counted ip := by
    have hpending := pending_set found hget ip
    have hsame : pendingAt ip found = pendingAt ip found₀ := by
      unfold pendingAt
      rw [hreserved, hip]
    have hcounted := hb.counted ip
    show CounterMap.count s.connectionsPerIp ip = _ + s.live ip
    omega
  within := hb.within
  tight := hb.tight
  accounted id' found' hfound := by
    dsimp only at hfound
    rw [OrderedMap.get?_set] at hfound
    split_ifs at hfound with hid
    · obtain rfl := Option.some.inj hfound
      rw [hid]
      exact haccounted.congr (fun h => h) fun h => h
    · exact (hb.accounted id' found' hfound).congr (fun h => h) fun h => h
  known id' hid := OrderedMap.mem_set.mpr (Or.inl (hb.known id' hid))
  named := hb.named
  once := hb.once

/-- **A reservation is released** by the raw socket's first end. -/
theorem Balanced.release (hb : Balanced limit s) {found₀ : Upgrade}
    (hget : s.upgrades.get? id = some found₀) (hfree : found₀.reserved = false)
    (hip : found.clientIp = found₀.clientIp) (hreserved : found.reserved = true)
    (hended : found.raw.errored = true ∨ found.raw.closed = true) :
    Balanced limit ({ s with upgrades := s.upgrades.set id found }.releaseSlot id found.clientIp) := by
  have hmine := hb.accounted id found₀ hget
  have hlistening : found₀.listening = true := by
    by_contra hdeaf
    rw [Bool.not_eq_true] at hdeaf
    exact absurd (hmine.settled hdeaf) (by rw [hfree]; decide)
  have hlive : id ∉ s.connectionIps := by
    intro hid
    exact absurd (hmine.live hid) (by rw [hlistening]; decide)
  have hunreleased : id ∉ s.releases := by
    intro hid
    exact absurd (hmine.released hid).1 (by rw [hfree]; decide)
  have hpositive : 0 < CounterMap.count s.connectionsPerIp found.clientIp := by
    have hle := pendingAt_le hget found.clientIp
    rw [pendingAt_free hfree, if_pos hip] at hle
    rw [hb.counted]
    omega
  refine ⟨fun ip => ?_, fun ip => ?_, hb.tight.decrement, fun id' found' hfound => ?_,
    fun id' hid => ?_, hb.named, ?_⟩
  · have hpending := pending_set found hget ip
    rw [pendingAt_free hfree, pendingAt_reserved hreserved, ← hip] at hpending
    have hdecrement := CounterMap.count_decrement hpositive ip
    have hcounted := hb.counted ip
    show CounterMap.count (CounterMap.decrement s.connectionsPerIp found.clientIp) ip =
      pending { s with upgrades := s.upgrades.set id found } ip + s.live ip
    omega
  · have hdecrement := CounterMap.count_decrement hpositive ip
    have hwithin := hb.within ip
    show CounterMap.count (CounterMap.decrement s.connectionsPerIp found.clientIp) ip ≤ limit
    omega
  · dsimp only [releaseSlot] at hfound
    rw [OrderedMap.get?_set] at hfound
    split_ifs at hfound with hid
    · obtain rfl := Option.some.inj hfound
      subst hid
      refine ⟨hip ▸ hmine.named, fun _ _ => hended, fun _ => hreserved, ?_, fun _ => ?_⟩
      · exact fun hid => absurd hid hlive
      · exact ⟨hreserved, hlive⟩
    · refine (hb.accounted id' found' hfound).congr (fun h => h) fun h => ?_
      exact (List.mem_append.mp h).resolve_right fun hlast => hid (List.mem_singleton.mp hlast)
  · refine OrderedMap.mem_set.mpr ?_
    rcases hid with hid | hid
    · exact Or.inl (hb.known id' (Or.inl hid))
    · rcases List.mem_append.mp hid with hid | hid
      · exact Or.inl (hb.known id' (Or.inr hid))
      · exact Or.inr (List.mem_singleton.mp hid)
  · exact List.Nodup.append hb.once (List.nodup_singleton id)
      (List.disjoint_singleton.mpr hunreleased)

/-- **The handshake succeeds**: the slot passes from the reservation to the live socket. -/
theorem Balanced.completeUpgrade (hb : Balanced limit s) (hget : s.upgrades.get? id = some found)
    (hlistening : found.listening = true) (herrored : found.raw.errored = false)
    (hclosed : found.raw.closed = false) : Balanced limit (s.completeUpgrade id found) := by
  have hmine := hb.accounted id found hget
  -- a raw socket that can still carry a handshake has not ended, so its slot was not given back
  have hfree : found.reserved = false := by
    rw [← Bool.not_eq_true]
    intro hreserved
    rcases hmine.heard hreserved hlistening with hended | hended
    · exact absurd hended (by rw [herrored]; decide)
    · exact absurd hended (by rw [hclosed]; decide)
  have hlive : id ∉ s.connectionIps := by
    intro hid
    exact absurd (hmine.live hid) (by rw [hlistening]; decide)
  have hunreleased : id ∉ s.releases := by
    intro hid
    exact absurd (hmine.released hid).1 (by rw [hfree]; decide)
  refine ⟨fun ip => ?_, hb.within, hb.tight, fun id' found' hfound => ?_, fun id' hid => ?_,
    fun id' ip hip => ?_, hb.once⟩
  · have hpending := pending_set { found with reserved := true, listening := false } hget ip
    rw [pendingAt_free hfree, pendingAt_reserved rfl] at hpending
    have hgained := live_set found.clientIp hlive ip
    have hcounted := hb.counted ip
    show CounterMap.count s.connectionsPerIp ip =
      pending { s with upgrades := s.upgrades.set id { found with
        reserved := true, listening := false } } ip +
      live { s with connectionIps := s.connectionIps.set id found.clientIp } ip
    rw [hgained]
    by_cases hip : ip = found.clientIp
    · rw [if_pos hip] at hpending
      rw [if_pos hip.symm]
      omega
    · rw [if_neg hip] at hpending
      rw [if_neg fun heq => hip heq.symm]
      omega
  · dsimp only [ConnectionSlots.completeUpgrade] at hfound
    rw [OrderedMap.get?_set] at hfound
    split_ifs at hfound with hid
    · obtain rfl := Option.some.inj hfound
      subst hid
      exact ⟨hmine.named, fun _ h => Bool.noConfusion h, fun _ => rfl, fun _ => rfl,
        fun h => absurd h hunreleased⟩
    · refine (hb.accounted id' found' hfound).congr (fun h => ?_) fun h => h
      exact (OrderedMap.mem_set.mp h).resolve_right hid
  · refine OrderedMap.mem_set.mpr ?_
    rcases hid with hid | hid
    · rcases OrderedMap.mem_set.mp hid with hid | hid
      · exact Or.inl (hb.known id' (Or.inl hid))
      · exact Or.inr hid
    · exact Or.inl (hb.known id' (Or.inr hid))
  · dsimp only [ConnectionSlots.completeUpgrade] at hip
    rw [OrderedMap.get?_set] at hip
    split_ifs at hip
    · obtain rfl := Option.some.inj hip
      exact hmine.named
    · exact hb.named id' ip hip

/-- **A WebSocket closes**; a socket that is gone already has nothing to release. -/
theorem Balanced.removeSocket (hb : Balanced limit s) (id : ConnectionId) :
    Balanced limit (s.removeSocket id) := by
  unfold ConnectionSlots.removeSocket
  dsimp only
  cases hip : s.connectionIps.get? id with
  | none =>
      have hid : id ∉ s.connectionIps := OrderedMap.get?_eq_none_iff.mp hip
      rw [OrderedMap.delete_of_not_mem hid]
      exact hb
  | some clientIp =>
      have hlive : id ∈ s.connectionIps := OrderedMap.mem_of_get? hip
      dsimp only
      rw [if_neg (hb.named id clientIp hip)]
      have hgone : ∀ id', id' ∈ s.connectionIps.delete id → id' ∈ s.connectionIps ∧ id' ≠ id :=
        fun id' h => OrderedMap.mem_delete.mp h
      have hpositive : 0 < CounterMap.count s.connectionsPerIp clientIp := by
        have hlost := live_delete hip clientIp
        rw [if_pos rfl] at hlost
        rw [hb.counted]
        omega
      have hunreleased : id ∉ s.releases := by
        intro hid
        obtain ⟨found, hget⟩ := OrderedMap.get?_of_mem (hb.known id (Or.inl hlive))
        exact ((hb.accounted id found hget).released hid).2 hlive
      refine ⟨fun ip => ?_, fun ip => ?_, hb.tight.decrement, fun id' found' hfound => ?_,
        fun id' hid => ?_, fun id' ip hget => ?_, ?_⟩
      · have hlost := live_delete hip ip
        have hdecrement := CounterMap.count_decrement hpositive ip
        have hcounted := hb.counted ip
        show CounterMap.count (CounterMap.decrement s.connectionsPerIp clientIp) ip =
          s.pending ip + live { s with connectionIps := s.connectionIps.delete id } ip
        by_cases heq : ip = clientIp
        · rw [if_pos heq] at hdecrement
          rw [if_pos heq.symm] at hlost
          omega
        · rw [if_neg heq] at hdecrement
          rw [if_neg fun h => heq h.symm] at hlost
          omega
      · have hdecrement := CounterMap.count_decrement hpositive ip
        have hwithin := hb.within ip
        show CounterMap.count (CounterMap.decrement s.connectionsPerIp clientIp) ip ≤ limit
        omega
      · have hmine := hb.accounted id' found' hfound
        refine ⟨hmine.named, hmine.heard, hmine.settled, fun h => hmine.live (hgone id' h).1,
          fun h => ?_⟩
        rcases List.mem_append.mp h with h | h
        · exact ⟨(hmine.released h).1, fun hid => (hmine.released h).2 (hgone id' hid).1⟩
        · obtain rfl := List.mem_singleton.mp h
          exact ⟨hmine.settled (hmine.live hlive), fun hid => (hgone id' hid).2 rfl⟩
      · rcases hid with hid | hid
        · exact hb.known id' (Or.inl (hgone id' hid).1)
        · rcases List.mem_append.mp hid with hid | hid
          · exact hb.known id' (Or.inr hid)
          · obtain rfl := List.mem_singleton.mp hid
            exact hb.known id' (Or.inl hlive)
      · dsimp only [releaseSlot] at hget
        rw [OrderedMap.get?_delete] at hget
        split_ifs at hget
        exact hb.named id' ip hget
      · exact List.Nodup.append hb.once (List.nodup_singleton id)
          (List.disjoint_singleton.mpr hunreleased)

theorem Balanced.handleUpgrade {options : ConnectionOptions}
    (hb : Balanced options.connectionLimit s) (hid : id ∉ s.upgrades) (request : UpgradeRequest) :
    Balanced options.connectionLimit (s.handleUpgrade options id request) := by
  unfold ConnectionSlots.handleUpgrade
  by_cases hpath : request.pathname ≠ "/ws"
  · rw [if_pos hpath]
    exact hb
  rw [if_neg hpath]
  by_cases horigin : options.isOriginAllowed request.origin = false
  · rw [if_pos horigin]
    exact hb.unaffected _ s.started
  rw [if_neg horigin]
  by_cases hauth : request.authenticated = false
  · rw [if_pos hauth]
    exact hb.unaffected _ s.started
  rw [if_neg hauth]
  dsimp only
  by_cases hfull : options.connectionLimit ≤ CounterMap.count s.connectionsPerIp
      (clientAddress request options.trustProxyHops)
  · rw [if_pos hfull]
    exact hb.unaffected _ s.started
  rw [if_neg hfull]
  exact hb.reserve hid (clientAddress_ne_empty request options.trustProxyHops)
    (Nat.lt_of_not_le hfull)

/-- **The raw socket ends**, by an error or otherwise. -/
theorem Balanced.releaseReservation (hb : Balanced limit s) {found₀ : Upgrade}
    (hget : s.upgrades.get? id = some found₀) {raw : RawSocket}
    (hended : raw.errored = true ∨ raw.closed = true) :
    Balanced limit (s.releaseReservation id { found₀ with raw := raw }) := by
  have hmine := hb.accounted id found₀ hget
  unfold ConnectionSlots.releaseReservation
  dsimp only
  by_cases hdone : found₀.listening = false ∨ found₀.reserved = true
  · rw [if_pos hdone]
    exact hb.setUpgrade hget rfl rfl
      ⟨hmine.named, fun _ _ => hended, hmine.settled, hmine.live, hmine.released⟩
  · rw [if_neg hdone]
    obtain ⟨-, hfree⟩ := not_or.mp hdone
    exact hb.release hget (Bool.not_eq_true _ ▸ hfree) rfl rfl hended

/-! ### Every run -/

theorem Balanced.step {options : ConnectionOptions} {completes : RawSocket → Bool}
    (hws : ∀ raw, completes raw = true → raw.errored = false ∧ raw.closed = false)
    (hb : Balanced options.connectionLimit s) {event : ConnectionEvent}
    (hstep : s.step options completes event = some s') : Balanced options.connectionLimit s' := by
  cases event with
  | upgrade id request =>
      dsimp only [ConnectionSlots.step] at hstep
      split_ifs at hstep with hok
      obtain rfl := Option.some.inj hstep
      exact hb.handleUpgrade hok.2 request
  | rawError id =>
      obtain ⟨found, hget, rfl⟩ := Option.map_eq_some_iff.mp hstep
      exact hb.releaseReservation hget (Or.inl rfl)
  | rawClose id =>
      obtain ⟨found, hget, rfl⟩ := Option.map_eq_some_iff.mp hstep
      exact hb.releaseReservation hget (Or.inr rfl)
  | upgraded id =>
      obtain ⟨found, hget, hstep⟩ := Option.bind_eq_some_iff.mp hstep
      split_ifs at hstep with hok
      obtain rfl := Option.some.inj hstep
      obtain ⟨herrored, hclosed⟩ := hws found.raw hok.2
      exact hb.completeUpgrade hget hok.1 herrored hclosed
  | closed id =>
      obtain rfl := Option.some.inj hstep
      exact hb.removeSocket id
  | stop =>
      obtain rfl := Option.some.inj hstep
      exact hb.unaffected s.upgradesRejected false

/-- **The slots balance**: over any interleaving an address has exactly the slots of its pending
upgrades and live sockets, within the limit, each given back at most once, and an address without
slots has no entry. -/
theorem slots_balance (options : ConnectionOptions) (completes : RawSocket → Bool)
    (hws : ∀ raw, completes raw = true → raw.errored = false ∧ raw.closed = false)
    (s : ConnectionSlots) (hreach : (system options completes).Reachable (fun _ _ => True) s) :
    (∀ ip, CounterMap.count s.connectionsPerIp ip = s.pending ip + s.live ip ∧
      CounterMap.count s.connectionsPerIp ip ≤ options.connectionLimit ∧
      (CounterMap.count s.connectionsPerIp ip = 0 → ip ∉ s.connectionsPerIp)) ∧
    s.releases.Nodup := by
  have hb : Balanced options.connectionLimit s := by
    refine hreach.invariant (Balanced options.connectionLimit) ?_ ?_
    · rintro s rfl
      exact balanced_new
    · intro s event s' hb _ hstep
      exact hb.step hws hstep
  refine ⟨fun ip => ⟨hb.counted ip, hb.within ip, fun hzero hmem => ?_⟩, hb.once⟩
  have hpositive := hb.tight.mem_iff.mp hmem
  omega

/-- Two upgrades from one address, one of which succeeds, errors on the raw sockets before and
after, the end of the socket told twice, and a third upgrade over the limit. -/
def twoUpgrades : List ConnectionEvent :=
  let request : UpgradeRequest := ⟨"/ws", none, true, some " 192.0.2.7:443 ", none⟩
  [.upgrade 0 request, .upgrade 1 request, .upgrade 2 request, .rawError 1, .rawClose 1,
    .upgraded 0, .rawError 0, .stop, .closed 0, .closed 0, .rawClose 0]

theorem slots_balance_twoUpgrades : ∃ s : ConnectionSlots,
    (system ⟨[], 1, some 2⟩ fun raw => !raw.errored && !raw.closed).run new twoUpgrades = some s ∧
      s.upgradesRejected.connectionLimit = 1 ∧ s.releases = [1, 0] ∧
      CounterMap.count s.connectionsPerIp "192.0.2.7" =
        s.pending "192.0.2.7" + s.live "192.0.2.7" := by
  have hrun : ((system ⟨[], 1, some 2⟩ fun raw => !raw.errored && !raw.closed).run new
      twoUpgrades).isSome ∧
      ∀ s ∈ (system ⟨[], 1, some 2⟩ fun raw => !raw.errored && !raw.closed).run new twoUpgrades,
        s.upgradesRejected.connectionLimit = 1 ∧ s.releases = [1, 0] := by
    decide +kernel
  obtain ⟨s, hs⟩ := Option.isSome_iff_exists.mp hrun.1
  obtain ⟨hrejected, hreleases⟩ := hrun.2 s hs
  refine ⟨s, hs, hrejected, hreleases, ?_⟩
  refine ((slots_balance ⟨[], 1, some 2⟩ (fun raw => !raw.errored && !raw.closed) ?_ s
    (TransitionSystem.reachable_of_run rfl hs)).1 "192.0.2.7").1
  intro raw hraw
  rw [Bool.and_eq_true, Bool.not_eq_true', Bool.not_eq_true'] at hraw
  exact hraw

end ConnectionSlots

end OpenStreamGrid
