import OpenStreamGrid.Tracker.StoreUtils

/-!
# The in-memory tracker store

`TrackerStore` with every operation of the persistence contract. An operation
takes the clock reading it uses; it either throws, which leaves the store as it
was, or returns the next store beside its value.

The stored peers are read through `peerState?`; the `_ok` theorem of each
operation says everything the operation can do, guards included, and the later
modules argue from these alone.
-/

namespace OpenStreamGrid

def NOT_FOUND_STATUS_CODE : ℕ := 404
def TOO_MANY_REQUESTS_STATUS_CODE : ℕ := 429

/-- Store operation failure with its corresponding HTTP status. -/
structure StoreError where
  message : String
  statusCode : ℕ
deriving DecidableEq

def broadcastNotFound (id : BroadcastId) : StoreError :=
  ⟨"Broadcast '" ++ id ++ "' was not found", NOT_FOUND_STATUS_CODE⟩

def peerNotFound (id : PeerId) : StoreError :=
  ⟨"Peer '" ++ id ++ "' was not found", NOT_FOUND_STATUS_CODE⟩

def peerLimitReached : StoreError :=
  ⟨"Broadcast peer limit reached", TOO_MANY_REQUESTS_STATUS_CODE⟩

/-- Options for atomic peer joins. -/
structure JoinPeerOptions where
  maxPeers : Option ℕ
deriving DecidableEq

/-- A peer removed for inactivity. -/
structure StalePeer where
  broadcastId : BroadcastId
  peerId : PeerId
deriving DecidableEq

/-- Active peer metadata paired with the peer's cumulative traffic counters. -/
structure PeerStatsSnapshot where
  peer : Peer
  stats : PeerTrafficStats
deriving DecidableEq

structure PeerState where
  peer : Peer
  stats : PeerTrafficStats
deriving DecidableEq

structure BroadcastState where
  broadcast : Broadcast
  peers : OrderedMap PeerId PeerState
  retiredStats : PeerTrafficStats
deriving DecidableEq

/-- A broadcast without one of its peers, whose counters it retires. -/
def BroadcastState.retire (state : BroadcastState) (peerId : PeerId) (peerState : PeerState) :
    BroadcastState :=
  { state with
    retiredStats := addPeerTrafficStats state.retiredStats peerState.stats
    peers := state.peers.delete peerId }

/-- In-memory tracker store used for development and tests. -/
structure TrackerStore where
  broadcasts : OrderedMap BroadcastId BroadcastState
  failureConsensus : PeerFailureConsensus
  maxSegmentsPerPeer : ℕ
deriving DecidableEq

/-- The peer record a join writes; quality and inventory survive a re-join. -/
def joinedPeer (request : PeerJoinRequest) (existing : Option Peer) (timestamp : Timestamp) :
    Peer where
  toPeerJoinRequest := request
  segments := (existing.map Peer.segments).getD []
  joinedAt := (existing.map Peer.joinedAt).getD timestamp
  lastSeenAt := timestamp
  latencyMs := (existing.map Peer.latencyMs).getD 0
  successRate := (existing.map Peer.successRate).getD (clampUnitInterval 1)
  trustScore := (existing.map Peer.trustScore).getD (clampUnitInterval 1)

/-- The inventory of a segment report before the caps. -/
def mergedReport (existing segments : List SegmentId) (replace : Bool) : List SegmentId :=
  (OrderedSet.ofList (if replace then segments else existing ++ segments)).toList

/-- The inventory of a delta before the caps: removals, then additions. -/
def mergedDelta (existing added removed : List SegmentId) : List SegmentId :=
  (((OrderedSet.ofList existing).eraseAll removed).insertAll added).toList

/-- The quality a heartbeat leaves. -/
def Peer.withHeartbeat (peer : Peer) (heartbeat : PeerHeartbeat) : Peer :=
  { peer with
    latencyMs := (heartbeat.latencyMs.map Rat.toNNRat).getD peer.latencyMs
    uploadBandwidthBps :=
      (heartbeat.uploadBandwidthBps.map fun v => some v.toNNRat).getD peer.uploadBandwidthBps
    successRate := (heartbeat.successRate.map clampUnitInterval).getD peer.successRate }

namespace TrackerStore

/-- A store over an empty database. -/
def new (maxSegmentsPerPeer : ℕ) : TrackerStore :=
  ⟨∅, .new DEFAULT_FAILURE_QUORUM DEFAULT_FAILURE_WINDOW_MS, maxSegmentsPerPeer⟩

/-! ## Lookups -/

def requireBroadcast (s : TrackerStore) (id : BroadcastId) : Except StoreError BroadcastState :=
  match s.broadcasts.get? id with
  | some state => .ok state
  | none => .error (broadcastNotFound id)

def requirePeer (s : TrackerStore) (broadcastId : BroadcastId) (peerId : PeerId) :
    Except StoreError (BroadcastState × PeerState) :=
  match s.requireBroadcast broadcastId with
  | .error e => .error e
  | .ok state =>
      match state.peers.get? peerId with
      | some peerState => .ok (state, peerState)
      | none => .error (peerNotFound peerId)

/-- The stored state of a peer. -/
def peerState? (s : TrackerStore) (broadcastId : BroadcastId) (peerId : PeerId) :
    Option PeerState :=
  (s.broadcasts.get? broadcastId).bind fun state => state.peers.get? peerId

def getPeer (s : TrackerStore) (broadcastId : BroadcastId) (peerId : PeerId) : Option Peer :=
  (s.peerState? broadcastId peerId).map PeerState.peer

def getBroadcast (s : TrackerStore) (id : BroadcastId) : Except StoreError Broadcast :=
  (s.requireBroadcast id).map BroadcastState.broadcast

def listBroadcasts (s : TrackerStore) : List Broadcast :=
  s.broadcasts.values.map BroadcastState.broadcast

def listPeers (s : TrackerStore) (broadcastId : BroadcastId) (segment : Option SegmentId) :
    Except StoreError (List Peer) :=
  (s.requireBroadcast broadcastId).map fun state =>
    (state.peers.values.map PeerState.peer).filter fun peer =>
      match segment with
      | none => true
      | some name => decide (name ∈ peer.segments)

def listPeerStats (s : TrackerStore) (broadcastId : BroadcastId) :
    Except StoreError (List PeerStatsSnapshot) :=
  (s.requireBroadcast broadcastId).map fun state =>
    state.peers.values.map fun peerState => ⟨peerState.peer, peerState.stats⟩

/-! ## Broadcasts -/

def registerBroadcast (s : TrackerStore) (timestamp : Timestamp)
    (registration : BroadcastRegistration) : TrackerStore × Broadcast × Bool :=
  match s.broadcasts.get? registration.id with
  | some existing =>
      let broadcast : Broadcast :=
        { existing.broadcast with
          playlistUrl := registration.playlistUrl
          metadata := registration.metadata.orElse fun _ => existing.broadcast.metadata
          updatedAt := timestamp }
      ({ s with broadcasts := s.broadcasts.set registration.id { existing with broadcast } },
        broadcast, false)
  | none =>
      let broadcast : Broadcast :=
        { registration with createdAt := timestamp, updatedAt := timestamp }
      ({ s with
          broadcasts := s.broadcasts.set registration.id
            ⟨broadcast, ∅, createEmptyPeerTrafficStats⟩ },
        broadcast, true)

def unregisterBroadcast (s : TrackerStore) (id : BroadcastId) : Except StoreError TrackerStore :=
  if id ∈ s.broadcasts then .ok { s with broadcasts := s.broadcasts.delete id }
  else .error (broadcastNotFound id)

/-! ## Peers -/

/-- Write a peer's state into its broadcast's. -/
def setPeer (s : TrackerStore) (broadcastId : BroadcastId) (state : BroadcastState)
    (peerId : PeerId) (peerState : PeerState) : TrackerStore :=
  { s with
    broadcasts := s.broadcasts.set broadcastId
      { state with peers := state.peers.set peerId peerState } }

def joinPeerDetailed (s : TrackerStore) (timestamp : Timestamp) (broadcastId : BroadcastId)
    (request : PeerJoinRequest) (options : JoinPeerOptions) :
    Except StoreError (TrackerStore × Peer × Bool) :=
  match s.requireBroadcast broadcastId with
  | .error e => .error e
  | .ok state =>
      let existing := state.peers.get? request.id
      if existing.isNone ∧ options.maxPeers.any (fun max => decide (state.peers.size ≥ max)) then
        .error peerLimitReached
      else
        let peer := joinedPeer request (existing.map PeerState.peer) timestamp
        let stats := (existing.map PeerState.stats).getD createEmptyPeerTrafficStats
        .ok (s.setPeer broadcastId state request.id ⟨peer, stats⟩, peer, existing.isSome)

/-- Move a peer's counters to the retired sum and forget it. -/
def retirePeer (s : TrackerStore) (broadcastId : BroadcastId) (peerId : PeerId) : TrackerStore :=
  match s.requirePeer broadcastId peerId with
  | .error _ => s
  | .ok (state, peerState) =>
      { s with broadcasts := s.broadcasts.set broadcastId (state.retire peerId peerState) }

def leavePeer (s : TrackerStore) (broadcastId : BroadcastId) (peerId : PeerId) :
    Except StoreError TrackerStore :=
  match s.requirePeer broadcastId peerId with
  | .error e => .error e
  | .ok _ => .ok (s.retirePeer broadcastId peerId)

/-- Every stored peer, broadcast by broadcast. -/
def allPeers (s : TrackerStore) : List (StalePeer × PeerState) :=
  s.broadcasts.entries.flatMap fun b =>
    b.2.peers.entries.map fun p => (⟨b.1, p.1⟩, p.2)

/-- Retires peers not seen for `maxAgeMs` and returns who was removed. -/
def removeStalePeers (s : TrackerStore) (now : Timestamp) (maxAgeMs : ℤ) :
    TrackerStore × List StalePeer :=
  let cutoff := now - maxAgeMs
  s.allPeers.foldl
    (fun acc entry =>
      if entry.2.peer.lastSeenAt < cutoff then
        (acc.1.retirePeer entry.1.broadcastId entry.1.peerId, acc.2 ++ [entry.1])
      else acc)
    (s, [])

/-! ## Reports -/

/-- What the report operations share: a required peer is changed in place. -/
def modifyPeer (s : TrackerStore) (broadcastId : BroadcastId) (peerId : PeerId)
    (f : PeerState → PeerState) : Except StoreError (TrackerStore × Peer) :=
  match s.requirePeer broadcastId peerId with
  | .error e => .error e
  | .ok (state, peerState) =>
      .ok (s.setPeer broadcastId state peerId (f peerState), (f peerState).peer)

def reportSegments (s : TrackerStore) (timestamp : Timestamp) (broadcastId : BroadcastId)
    (peerId : PeerId) (segments : List SegmentId) (replace : Bool) :
    Except StoreError (TrackerStore × Peer) :=
  s.modifyPeer broadcastId peerId fun peerState =>
    { peerState with
      peer :=
        { peerState.peer with
          segments := limitInventory
            (mergedReport peerState.peer.segments segments replace) s.maxSegmentsPerPeer
          lastSeenAt := timestamp } }

def applySegmentDelta (s : TrackerStore) (timestamp : Timestamp) (broadcastId : BroadcastId)
    (peerId : PeerId) (added removed : List SegmentId) :
    Except StoreError (TrackerStore × Peer) :=
  s.modifyPeer broadcastId peerId fun peerState =>
    { peerState with
      peer :=
        { peerState.peer with
          segments := limitInventory
            (mergedDelta peerState.peer.segments added removed) s.maxSegmentsPerPeer
          lastSeenAt := timestamp } }

def heartbeat (s : TrackerStore) (timestamp : Timestamp) (broadcastId : BroadcastId)
    (peerId : PeerId) (heartbeat : PeerHeartbeat) : Except StoreError (TrackerStore × Peer) :=
  s.modifyPeer broadcastId peerId fun peerState =>
    { peerState with
      peer := { peerState.peer.withHeartbeat heartbeat with lastSeenAt := timestamp } }

def reportStats (s : TrackerStore) (timestamp : Timestamp) (broadcastId : BroadcastId)
    (peerId : PeerId) (stats : TrafficRecord JsNumber) : Except StoreError (TrackerStore × Peer) :=
  s.modifyPeer broadcastId peerId fun peerState =>
    { peer := { peerState.peer with lastSeenAt := timestamp }
      stats := sanitizePeerTrafficStats stats }

def reportPeerFailure (s : TrackerStore) (now : Timestamp) (broadcastId : BroadcastId)
    (peerId : PeerId) (report : PeerFailureReport) : Except StoreError (TrackerStore × Peer) :=
  match s.requirePeer broadcastId peerId, s.requirePeer broadcastId report.reporterId with
  | .error e, _ => .error e
  | .ok _, .error e => .error e
  | .ok (_, reported), .ok _ =>
      let (failureConsensus, confirmed) :=
        s.failureConsensus.observe now broadcastId peerId report
      let s := { s with failureConsensus }
      if confirmed then
        s.modifyPeer broadcastId peerId fun peerState =>
          let quality :=
            penalizePeerQuality peerState.peer.trustScore peerState.peer.successRate report.reason
          { peerState with
            peer := { peerState.peer with trustScore := quality.1, successRate := quality.2 } }
      else .ok (s, reported.peer)

/-! ## Statistics -/

def totalsFor (state : BroadcastState) : TrafficTotals where
  peers := state.peers.size
  stats := (state.peers.values.map PeerState.stats).foldl addPeerTrafficStats
    (addPeerTrafficStats createEmptyPeerTrafficStats state.retiredStats)

def getBroadcastStats (s : TrackerStore) (broadcastId : BroadcastId) :
    Except StoreError TrafficTotals :=
  (s.requireBroadcast broadcastId).map totalsFor

/-- Totals over every registered broadcast, with their number. -/
def getGlobalStats (s : TrackerStore) : ℕ × TrafficTotals :=
  (s.broadcasts.size,
    (s.broadcasts.values.map totalsFor).foldl
      (fun totals t => ⟨totals.peers + t.peers, addPeerTrafficStats totals.stats t.stats⟩)
      ⟨0, createEmptyPeerTrafficStats⟩)

/-! ## What the operations do

Lookups first: a required broadcast or peer is a stored one. -/

theorem requireBroadcast_ok {s : TrackerStore} {id : BroadcastId} {state : BroadcastState} :
    s.requireBroadcast id = .ok state ↔ s.broadcasts.get? id = some state := by
  unfold requireBroadcast
  cases s.broadcasts.get? id <;> simp

theorem requirePeer_ok {s : TrackerStore} {b : BroadcastId} {p : PeerId}
    {state : BroadcastState} {peerState : PeerState} :
    s.requirePeer b p = .ok (state, peerState) ↔
      s.broadcasts.get? b = some state ∧ state.peers.get? p = some peerState := by
  unfold requirePeer requireBroadcast
  cases s.broadcasts.get? b with
  | none => simp
  | some found =>
      simp only [Option.some.injEq]
      constructor
      · intro h
        cases hp : found.peers.get? p with
        | none => simp [hp] at h
        | some foundPeer =>
            simp only [hp, Except.ok.injEq, Prod.mk.injEq] at h
            obtain ⟨rfl, rfl⟩ := h
            exact ⟨rfl, hp⟩
      · rintro ⟨rfl, h⟩
        rw [h]

theorem peerState?_eq_some {s : TrackerStore} {b : BroadcastId} {p : PeerId}
    {peerState : PeerState} :
    s.peerState? b p = some peerState ↔
      ∃ state, s.broadcasts.get? b = some state ∧ state.peers.get? p = some peerState :=
  Option.bind_eq_some_iff

theorem requirePeer_isOk_iff {s : TrackerStore} {b : BroadcastId} {p : PeerId} :
    (∃ found, s.requirePeer b p = .ok found) ↔ (s.peerState? b p).isSome := by
  rw [Option.isSome_iff_exists]
  constructor
  · rintro ⟨⟨state, peerState⟩, h⟩
    exact ⟨peerState, peerState?_eq_some.mpr ⟨state, requirePeer_ok.mp h⟩⟩
  · rintro ⟨peerState, h⟩
    obtain ⟨state, h⟩ := peerState?_eq_some.mp h
    exact ⟨(state, peerState), requirePeer_ok.mpr h⟩

@[simp] theorem setPeer_broadcasts_get? (s : TrackerStore) (b b' : BroadcastId)
    (state : BroadcastState) (p : PeerId) (peerState : PeerState) :
    (s.setPeer b state p peerState).broadcasts.get? b'
      = if b' = b then some { state with peers := state.peers.set p peerState }
        else s.broadcasts.get? b' :=
  OrderedMap.get?_set ..

theorem modifyPeer_ok {s s' : TrackerStore} {b : BroadcastId} {p : PeerId}
    {f : PeerState → PeerState} {peer : Peer} :
    s.modifyPeer b p f = .ok (s', peer) ↔
      ∃ state peerState, s.broadcasts.get? b = some state ∧
        state.peers.get? p = some peerState ∧
        s' = s.setPeer b state p (f peerState) ∧ peer = (f peerState).peer := by
  unfold modifyPeer
  constructor
  · intro h
    cases hr : s.requirePeer b p with
    | error e => simp [hr] at h
    | ok found =>
        obtain ⟨state, peerState⟩ := found
        obtain ⟨hs, hp⟩ := requirePeer_ok.mp hr
        simp only [hr, Except.ok.injEq, Prod.mk.injEq] at h
        exact ⟨state, peerState, hs, hp, h.1.symm, h.2.symm⟩
  · rintro ⟨state, peerState, hs, hp, rfl, rfl⟩
    rw [requirePeer_ok.mpr ⟨hs, hp⟩]

/-- Everything a join can do. -/
theorem joinPeerDetailed_ok {s s' : TrackerStore} {t : Timestamp} {b : BroadcastId}
    {request : PeerJoinRequest} {options : JoinPeerOptions} {peer : Peer} {already : Bool} :
    s.joinPeerDetailed t b request options = .ok (s', peer, already) ↔
      ∃ state, s.broadcasts.get? b = some state ∧
        ¬ ((state.peers.get? request.id).isNone ∧
            options.maxPeers.any fun max => decide (state.peers.size ≥ max)) ∧
        peer = joinedPeer request ((state.peers.get? request.id).map PeerState.peer) t ∧
        already = (state.peers.get? request.id).isSome ∧
        s' = s.setPeer b state request.id
          ⟨peer, ((state.peers.get? request.id).map PeerState.stats).getD
            createEmptyPeerTrafficStats⟩ := by
  unfold joinPeerDetailed
  constructor
  · intro h
    cases hr : s.requireBroadcast b with
    | error e => simp [hr] at h
    | ok state =>
        simp only [hr] at h
        split_ifs at h with hlimit
        simp only [Except.ok.injEq, Prod.mk.injEq] at h
        obtain ⟨rfl, rfl, rfl⟩ := h
        exact ⟨state, requireBroadcast_ok.mp hr, hlimit, rfl, rfl, rfl⟩
  · rintro ⟨state, hs, hlimit, rfl, rfl, rfl⟩
    simp only [requireBroadcast_ok.mpr hs, if_neg hlimit]

theorem retirePeer_eq {s : TrackerStore} {b : BroadcastId} {p : PeerId}
    {state : BroadcastState} {peerState : PeerState} (hs : s.broadcasts.get? b = some state)
    (hp : state.peers.get? p = some peerState) :
    s.retirePeer b p = { s with broadcasts := s.broadcasts.set b (state.retire p peerState) } := by
  simp only [retirePeer, requirePeer_ok.mpr ⟨hs, hp⟩]

theorem retirePeer_eq_self {s : TrackerStore} {b : BroadcastId} {p : PeerId}
    (h : s.peerState? b p = none) : s.retirePeer b p = s := by
  unfold retirePeer
  cases hr : s.requirePeer b p with
  | error e => rfl
  | ok found =>
      have := requirePeer_isOk_iff.mp ⟨found, hr⟩
      rw [h] at this
      exact absurd this Bool.false_ne_true

theorem leavePeer_ok {s s' : TrackerStore} {b : BroadcastId} {p : PeerId} :
    s.leavePeer b p = .ok s' ↔ (s.peerState? b p).isSome ∧ s' = s.retirePeer b p := by
  unfold leavePeer
  rw [← requirePeer_isOk_iff]
  cases s.requirePeer b p with
  | error e => simp
  | ok found => simp [eq_comm]

/-! ## Effects on the stored peers -/

theorem peerState?_setPeer {s : TrackerStore} {b : BroadcastId} {state : BroadcastState}
    (hs : s.broadcasts.get? b = some state) (p : PeerId) (peerState : PeerState)
    (b' : BroadcastId) (p' : PeerId) :
    (s.setPeer b state p peerState).peerState? b' p'
      = if b' = b ∧ p' = p then some peerState else s.peerState? b' p' := by
  unfold peerState?
  rw [setPeer_broadcasts_get?]
  by_cases hb : b' = b
  · subst hb
    simp [hs]
  · simp [hb]

theorem peerState?_retirePeer (s : TrackerStore) (b b' : BroadcastId) (p p' : PeerId) :
    (s.retirePeer b p).peerState? b' p'
      = if b' = b ∧ p' = p then none else s.peerState? b' p' := by
  cases h : s.peerState? b p with
  | none =>
      rw [retirePeer_eq_self h]
      split_ifs with hbp
      · rw [hbp.1, hbp.2, h]
      · rfl
  | some peerState =>
      obtain ⟨state, hs, hp⟩ := peerState?_eq_some.mp h
      rw [retirePeer_eq hs hp]
      unfold peerState? BroadcastState.retire
      rw [OrderedMap.get?_set]
      by_cases hb : b' = b
      · subst hb
        simp [hs]
      · simp [hb]

/-- `s'` differs from `s` in at most the state of one peer, which is now `new`. -/
structure PeerUpdated (s s' : TrackerStore) (b : BroadcastId) (p : PeerId)
    (new : Option PeerState) : Prop where
  peerState? : ∀ b' p',
    s'.peerState? b' p' = if b' = b ∧ p' = p then new else s.peerState? b' p'
  broadcasts : ∀ b', b' ∈ s'.broadcasts ↔ b' ∈ s.broadcasts
  maxSegmentsPerPeer : s'.maxSegmentsPerPeer = s.maxSegmentsPerPeer

theorem peerUpdated_setPeer {s : TrackerStore} {b : BroadcastId} {state : BroadcastState}
    (hs : s.broadcasts.get? b = some state) (p : PeerId) (peerState : PeerState) :
    PeerUpdated s (s.setPeer b state p peerState) b p (some peerState) where
  peerState? := peerState?_setPeer hs p peerState
  broadcasts := by
    intro b'
    rw [setPeer, OrderedMap.mem_set]
    constructor
    · rintro (h | rfl)
      · exact h
      · exact OrderedMap.mem_of_get? hs
    · exact Or.inl
  maxSegmentsPerPeer := rfl

theorem peerUpdated_retirePeer {s : TrackerStore} {b : BroadcastId} {p : PeerId} :
    PeerUpdated s (s.retirePeer b p) b p none where
  peerState? := fun b' p' => peerState?_retirePeer s b b' p p'
  broadcasts := by
    intro b'
    cases h : s.peerState? b p with
    | none => rw [retirePeer_eq_self h]
    | some peerState =>
        obtain ⟨state, hs, hp⟩ := peerState?_eq_some.mp h
        rw [retirePeer_eq hs hp, OrderedMap.mem_set]
        constructor
        · rintro (h | rfl)
          · exact h
          · exact OrderedMap.mem_of_get? hs
        · exact Or.inl
  maxSegmentsPerPeer := by
    unfold retirePeer
    cases s.requirePeer b p <;> rfl

theorem modifyPeer_updated {s s' : TrackerStore} {b : BroadcastId} {p : PeerId}
    {f : PeerState → PeerState} {peer : Peer} (h : s.modifyPeer b p f = .ok (s', peer)) :
    ∃ peerState, s.peerState? b p = some peerState ∧ peer = (f peerState).peer ∧
      PeerUpdated s s' b p (some (f peerState)) := by
  obtain ⟨state, peerState, hs, hp, rfl, hpeer⟩ := modifyPeer_ok.mp h
  exact ⟨peerState, peerState?_eq_some.mpr ⟨state, hs, hp⟩, hpeer,
    peerUpdated_setPeer hs p (f peerState)⟩

theorem modifyPeer_isOk_iff {s : TrackerStore} {b : BroadcastId} {p : PeerId}
    {f : PeerState → PeerState} :
    (∃ result, s.modifyPeer b p f = .ok result) ↔ (s.peerState? b p).isSome := by
  rw [← requirePeer_isOk_iff]
  unfold modifyPeer
  cases s.requirePeer b p <;> simp

theorem mem_registerBroadcast {s : TrackerStore} {t : Timestamp}
    {registration : BroadcastRegistration} {b : BroadcastId} :
    b ∈ (s.registerBroadcast t registration).1.broadcasts ↔
      b ∈ s.broadcasts ∨ b = registration.id := by
  unfold registerBroadcast
  cases s.broadcasts.get? registration.id <;> exact OrderedMap.mem_set

theorem registerBroadcast_maxSegmentsPerPeer (s : TrackerStore) (t : Timestamp)
    (registration : BroadcastRegistration) :
    (s.registerBroadcast t registration).1.maxSegmentsPerPeer = s.maxSegmentsPerPeer := by
  unfold registerBroadcast
  cases s.broadcasts.get? registration.id <;> rfl

theorem peerState?_registerBroadcast (s : TrackerStore) (t : Timestamp)
    (registration : BroadcastRegistration) (b : BroadcastId) (p : PeerId) :
    (s.registerBroadcast t registration).1.peerState? b p = s.peerState? b p := by
  unfold registerBroadcast peerState?
  cases hs : s.broadcasts.get? registration.id with
  | none =>
      simp only [OrderedMap.get?_set]
      split_ifs with hb
      · rw [hb, hs]
        rfl
      · rfl
  | some state =>
      simp only [OrderedMap.get?_set]
      split_ifs with hb
      · rw [hb, hs]
        rfl
      · rfl

/-! ## Stale peers -/

/-- Who a sweep at this cutoff removes. -/
def stalePeers (s : TrackerStore) (cutoff : Timestamp) : List StalePeer :=
  (s.allPeers.filter fun entry => decide (entry.2.peer.lastSeenAt < cutoff)).map Prod.fst

/-- Retire a list of peers, one after another. -/
def retirePeers (s : TrackerStore) (stale : List StalePeer) : TrackerStore :=
  stale.foldl (fun s x => s.retirePeer x.broadcastId x.peerId) s

/-- **A sweep retires exactly the stale peers**, in listing order. -/
theorem removeStalePeers_eq (s : TrackerStore) (now : Timestamp) (maxAgeMs : ℤ) :
    s.removeStalePeers now maxAgeMs
      = (s.retirePeers (s.stalePeers (now - maxAgeMs)), s.stalePeers (now - maxAgeMs)) := by
  suffices gen : ∀ (entries : List (StalePeer × PeerState)) (t : TrackerStore)
      (removed : List StalePeer),
      entries.foldl
        (fun acc entry =>
          if entry.2.peer.lastSeenAt < now - maxAgeMs then
            (acc.1.retirePeer entry.1.broadcastId entry.1.peerId, acc.2 ++ [entry.1])
          else acc) (t, removed)
        = (t.retirePeers ((entries.filter fun entry =>
              decide (entry.2.peer.lastSeenAt < now - maxAgeMs)).map Prod.fst),
            removed ++ (entries.filter fun entry =>
              decide (entry.2.peer.lastSeenAt < now - maxAgeMs)).map Prod.fst) by
    have := gen s.allPeers s []
    rw [List.nil_append] at this
    exact this
  intro entries
  induction entries with
  | nil => intro t removed; simp [retirePeers]
  | cons entry rest ih =>
      intro t removed
      by_cases h : entry.2.peer.lastSeenAt < now - maxAgeMs
      · rw [List.foldl_cons, if_pos h, ih, List.filter_cons_of_pos (by simpa using h)]
        simp [retirePeers]
      · rw [List.foldl_cons, if_neg h, ih, List.filter_cons_of_neg (by simpa using h)]

theorem mem_allPeers {s : TrackerStore} {x : StalePeer} {peerState : PeerState} :
    (x, peerState) ∈ s.allPeers ↔ s.peerState? x.broadcastId x.peerId = some peerState := by
  rw [peerState?_eq_some]
  unfold allPeers
  simp only [List.mem_flatMap, List.mem_map, Prod.mk.injEq]
  constructor
  · rintro ⟨⟨b, state⟩, hb, ⟨p, found⟩, hp, rfl, rfl⟩
    exact ⟨state, OrderedMap.get?_eq_some_iff.mpr hb, OrderedMap.get?_eq_some_iff.mpr hp⟩
  · rintro ⟨state, hb, hp⟩
    exact ⟨(x.broadcastId, state), OrderedMap.get?_eq_some_iff.mp hb,
      (x.peerId, peerState), OrderedMap.get?_eq_some_iff.mp hp, rfl, rfl⟩

theorem mem_stalePeers {s : TrackerStore} {cutoff : Timestamp} {x : StalePeer} :
    x ∈ s.stalePeers cutoff ↔
      ∃ peerState, s.peerState? x.broadcastId x.peerId = some peerState ∧
        peerState.peer.lastSeenAt < cutoff := by
  simp only [stalePeers, List.mem_map, List.mem_filter, decide_eq_true_eq]
  constructor
  · rintro ⟨⟨y, peerState⟩, ⟨hmem, hold⟩, rfl⟩
    exact ⟨peerState, mem_allPeers.mp hmem, hold⟩
  · rintro ⟨peerState, hp, hold⟩
    exact ⟨(x, peerState), ⟨mem_allPeers.mpr hp, hold⟩, rfl⟩

theorem nodup_allPeers (s : TrackerStore) : (s.allPeers.map Prod.fst).Nodup := by
  unfold allPeers
  rw [List.map_flatMap, List.nodup_flatMap]
  constructor
  · rintro ⟨b, state⟩ _
    rw [List.map_map]
    have hmap : (Prod.fst ∘ fun p : PeerId × PeerState => ((⟨b, p.1⟩ : StalePeer), p.2))
        = (fun id => (⟨b, id⟩ : StalePeer)) ∘ Prod.fst := rfl
    rw [hmap, ← List.map_map]
    refine state.peers.nodupKeys.map fun x y hxy => ?_
    exact (StalePeer.mk.inj hxy).2
  · refine (List.pairwise_map.mp s.broadcasts.nodupKeys).imp ?_
    rintro ⟨b, state⟩ ⟨b', state'⟩ hne x hx hx'
    simp only [List.map_map, List.mem_map, Function.comp_apply] at hx hx'
    obtain ⟨p, _, rfl⟩ := hx
    obtain ⟨p', _, heq⟩ := hx'
    exact hne (StalePeer.mk.inj heq).1.symm

theorem nodup_stalePeers (s : TrackerStore) (cutoff : Timestamp) :
    (s.stalePeers cutoff).Nodup :=
  (List.filter_sublist.map Prod.fst).nodup s.nodup_allPeers

theorem peerState?_retirePeers (stale : List StalePeer) :
    ∀ (s : TrackerStore) (b : BroadcastId) (p : PeerId),
      (s.retirePeers stale).peerState? b p
        = if ⟨b, p⟩ ∈ stale then none else s.peerState? b p := by
  induction stale with
  | nil => intro s b p; simp [retirePeers]
  | cons x rest ih =>
      intro s b p
      change ((s.retirePeer x.broadcastId x.peerId).retirePeers rest).peerState? b p = _
      rw [ih, peerState?_retirePeer]
      by_cases hrest : (⟨b, p⟩ : StalePeer) ∈ rest
      · simp [hrest]
      · by_cases hx : b = x.broadcastId ∧ p = x.peerId
        · simp [hx.1, hx.2]
        · have hne : (⟨b, p⟩ : StalePeer) ≠ x := fun e => hx ⟨by rw [← e], by rw [← e]⟩
          simp [hx, hrest, hne]

end TrackerStore

end OpenStreamGrid
