import OpenStreamGrid.Tracker.StoreAgreement
import OpenStreamGrid.Tracker.TrafficAccounting

/-!
# Every operation of a tracker store

The persistence contract as one type of calls and one type of returned values,
so that a run of a store is a list of calls with their clock readings.
-/

namespace OpenStreamGrid

/-- A call of the contract; `joinPeer` is `joinPeerDetailed`, which returns more. -/
inductive StoreOp where
  | registerBroadcast (registration : BroadcastRegistration)
  | listBroadcasts
  | getBroadcast (id : BroadcastId)
  | unregisterBroadcast (id : BroadcastId)
  | joinPeer (broadcastId : BroadcastId) (request : PeerJoinRequest) (options : JoinPeerOptions)
  | leavePeer (broadcastId : BroadcastId) (peerId : PeerId)
  | listPeers (broadcastId : BroadcastId)
  | listPeersWithSegment (broadcastId : BroadcastId) (segment : SegmentId)
  | getPeer (broadcastId : BroadcastId) (peerId : PeerId)
  | listPeerStats (broadcastId : BroadcastId)
  | reportSegments (broadcastId : BroadcastId) (peerId : PeerId) (segments : List SegmentId)
      (replace : Bool)
  | applySegmentDelta (broadcastId : BroadcastId) (peerId : PeerId)
      (added removed : List SegmentId)
  | heartbeat (broadcastId : BroadcastId) (peerId : PeerId) (heartbeat : PeerHeartbeat)
  | reportStats (broadcastId : BroadcastId) (peerId : PeerId) (stats : TrafficRecord JsNumber)
  | reportPeerFailure (broadcastId : BroadcastId) (peerId : PeerId) (report : PeerFailureReport)
  | removeStalePeers (maxAgeMs : ℕ)
  | getBroadcastStats (broadcastId : BroadcastId)
  | getGlobalStats

/-- What a call returns; `holders` is a listing filtered by a segment. -/
inductive StoreValue where
  | nothing
  | broadcast (broadcast : Broadcast)
  | registered (broadcast : Broadcast) (created : Bool)
  | broadcasts (broadcasts : List Broadcast)
  | peer (peer : Peer)
  | joined (peer : Peer) (alreadyJoined : Bool)
  | found (peer : Option Peer)
  | peers (peers : List Peer)
  | holders (peers : List Peer)
  | snapshots (snapshots : List PeerStatsSnapshot)
  | removed (stalePeers : List StalePeer)
  | totals (totals : TrafficTotals)
  | globalTotals (broadcasts : ℕ) (totals : TrafficTotals)

/-- The persistence contract shared by the tracker stores. -/
structure TrackerStoreBackend (σ : Type) where
  new : σ
  registerBroadcast : σ → Timestamp → BroadcastRegistration → σ × Broadcast × Bool
  listBroadcasts : σ → List Broadcast
  getBroadcast : σ → BroadcastId → Except StoreError Broadcast
  unregisterBroadcast : σ → BroadcastId → Except StoreError σ
  joinPeerDetailed : σ → Timestamp → BroadcastId → PeerJoinRequest → JoinPeerOptions →
    Except StoreError (σ × Peer × Bool)
  leavePeer : σ → BroadcastId → PeerId → Except StoreError σ
  listPeers : σ → BroadcastId → Option SegmentId → Except StoreError (List Peer)
  getPeer : σ → BroadcastId → PeerId → Option Peer
  listPeerStats : σ → BroadcastId → Except StoreError (List PeerStatsSnapshot)
  reportSegments : σ → Timestamp → BroadcastId → PeerId → List SegmentId → Bool →
    Except StoreError (σ × Peer)
  applySegmentDelta : σ → Timestamp → BroadcastId → PeerId → List SegmentId → List SegmentId →
    Except StoreError (σ × Peer)
  heartbeat : σ → Timestamp → BroadcastId → PeerId → PeerHeartbeat → Except StoreError (σ × Peer)
  reportStats : σ → Timestamp → BroadcastId → PeerId → TrafficRecord JsNumber →
    Except StoreError σ
  reportPeerFailure : σ → Timestamp → BroadcastId → PeerId → PeerFailureReport →
    Except StoreError (σ × Peer)
  removeStalePeers : σ → Timestamp → ℤ → σ × List StalePeer
  getBroadcastStats : σ → BroadcastId → Except StoreError TrafficTotals
  getGlobalStats : σ → ℕ × TrafficTotals

def TrackerStore.backend (maxSegmentsPerPeer : ℕ) : TrackerStoreBackend TrackerStore where
  new := .new maxSegmentsPerPeer
  registerBroadcast := TrackerStore.registerBroadcast
  listBroadcasts := TrackerStore.listBroadcasts
  getBroadcast := TrackerStore.getBroadcast
  unregisterBroadcast := TrackerStore.unregisterBroadcast
  joinPeerDetailed := TrackerStore.joinPeerDetailed
  leavePeer := TrackerStore.leavePeer
  listPeers := TrackerStore.listPeers
  getPeer := TrackerStore.getPeer
  listPeerStats := TrackerStore.listPeerStats
  reportSegments := TrackerStore.reportSegments
  applySegmentDelta := TrackerStore.applySegmentDelta
  heartbeat := TrackerStore.heartbeat
  reportStats := fun s t b p stats => (s.reportStats t b p stats).map Prod.fst
  reportPeerFailure := TrackerStore.reportPeerFailure
  removeStalePeers := TrackerStore.removeStalePeers
  getBroadcastStats := TrackerStore.getBroadcastStats
  getGlobalStats := TrackerStore.getGlobalStats

def SQLiteStore.backend (maxSegmentsPerPeer : ℕ) : TrackerStoreBackend SQLiteStore where
  new := .new maxSegmentsPerPeer
  registerBroadcast := SQLiteStore.registerBroadcast
  listBroadcasts := SQLiteStore.listBroadcasts
  getBroadcast := SQLiteStore.getBroadcast
  unregisterBroadcast := SQLiteStore.unregisterBroadcast
  joinPeerDetailed := SQLiteStore.joinPeerDetailed
  leavePeer := SQLiteStore.leavePeer
  listPeers := SQLiteStore.listPeers
  getPeer := SQLiteStore.getPeer
  listPeerStats := SQLiteStore.listPeerStats
  reportSegments := SQLiteStore.reportSegments
  applySegmentDelta := SQLiteStore.applySegmentDelta
  heartbeat := SQLiteStore.heartbeat
  reportStats := SQLiteStore.reportStats
  reportPeerFailure := SQLiteStore.reportPeerFailure
  removeStalePeers := SQLiteStore.removeStalePeers
  getBroadcastStats := SQLiteStore.getBroadcastStats
  getGlobalStats := SQLiteStore.getGlobalStats

/-- A call that reads: its value beside the unchanged state. -/
def reading {σ α : Type} (s : σ) (f : α → StoreValue) (r : Except StoreError α) :
    Except StoreError (σ × StoreValue) :=
  r.map fun a => (s, f a)

/-- A call that returns nothing. -/
def writing {σ : Type} (r : Except StoreError σ) : Except StoreError (σ × StoreValue) :=
  r.map fun s => (s, .nothing)

/-- A call that returns a value beside the next state. -/
def returning {σ α : Type} (f : α → StoreValue) (r : Except StoreError (σ × α)) :
    Except StoreError (σ × StoreValue) :=
  r.map fun x => (x.1, f x.2)

section Rules

variable {σ α : Type} {s : σ} {P : σ → Prop}

/-! What holds before a call and of every state it can return holds after it. -/

theorem stateAfter_reading {f : α → StoreValue} {r : Except StoreError α} (h : P s) :
    P (stateAfter s (reading s f r)) := by
  cases r <;> exact h

theorem stateAfter_writing {r : Except StoreError σ} (h : P s) (hr : ∀ s', r = .ok s' → P s') :
    P (stateAfter s (writing r)) := by
  cases r with
  | error e => exact h
  | ok s' => exact hr s' rfl

theorem stateAfter_returning {f : α → StoreValue} {r : Except StoreError (σ × α)} (h : P s)
    (hr : ∀ s' a, r = .ok (s', a) → P s') : P (stateAfter s (returning f r)) := by
  cases r with
  | error e => exact h
  | ok x => exact hr x.1 x.2 rfl

end Rules

namespace TrackerStoreBackend

variable {σ : Type} (T : TrackerStoreBackend σ)

/-- Make a call: it throws, or returns the next state and a value. -/
def perform (s : σ) (t : Timestamp) : StoreOp → Except StoreError (σ × StoreValue)
  | .registerBroadcast registration =>
      returning (fun x => .registered x.1 x.2) (.ok (T.registerBroadcast s t registration))
  | .listBroadcasts => reading s .broadcasts (.ok (T.listBroadcasts s))
  | .getBroadcast id => reading s .broadcast (T.getBroadcast s id)
  | .unregisterBroadcast id => writing (T.unregisterBroadcast s id)
  | .joinPeer b request options =>
      returning (fun x => .joined x.1 x.2) (T.joinPeerDetailed s t b request options)
  | .leavePeer b p => writing (T.leavePeer s b p)
  | .listPeers b => reading s .peers (T.listPeers s b none)
  | .listPeersWithSegment b segment => reading s .holders (T.listPeers s b (some segment))
  | .getPeer b p => reading s .found (.ok (T.getPeer s b p))
  | .listPeerStats b => reading s .snapshots (T.listPeerStats s b)
  | .reportSegments b p segments replace =>
      returning .peer (T.reportSegments s t b p segments replace)
  | .applySegmentDelta b p added removed =>
      returning .peer (T.applySegmentDelta s t b p added removed)
  | .heartbeat b p heartbeat => returning .peer (T.heartbeat s t b p heartbeat)
  | .reportStats b p stats => writing (T.reportStats s t b p stats)
  | .reportPeerFailure b p report => returning .peer (T.reportPeerFailure s t b p report)
  | .removeStalePeers maxAgeMs => returning .removed (.ok (T.removeStalePeers s t maxAgeMs))
  | .getBroadcastStats b => reading s .totals (T.getBroadcastStats s b)
  | .getGlobalStats => reading s (fun x => .globalTotals x.1 x.2) (.ok (T.getGlobalStats s))

/-- The store after a call; a throwing one leaves it as it was. -/
def next (s : σ) (t : Timestamp) (op : StoreOp) : σ := stateAfter s (T.perform s t op)

/-- The store after a run of calls with their clock readings. -/
def afterCalls (calls : List (Timestamp × StoreOp)) : σ :=
  calls.foldl (fun s call => T.next s call.1 call.2) T.new

/-- What the new store has and every call keeps holds after every run. -/
theorem afterCalls_induction {P : σ → Prop} (hnew : P T.new)
    (hnext : ∀ s t op, P s → P (T.next s t op)) (calls : List (Timestamp × StoreOp)) :
    P (T.afterCalls calls) := by
  unfold afterCalls
  generalize T.new = s at hnew
  induction calls generalizing s with
  | nil => exact hnew
  | cons call calls ih => exact ih _ (hnext s call.1 call.2 hnew)

/-- The runs of a store, call by call. -/
def system : TransitionSystem σ (Timestamp × StoreOp) where
  init s := s = T.new
  step s call := some (T.next s call.1 call.2)

end TrackerStoreBackend

/-! ## What a call does to the in-memory store -/

/-- The peer that a report is about. -/
def StoreOp.target : StoreOp → Option (BroadcastId × PeerId)
  | .reportSegments b p _ _ => some (b, p)
  | .applySegmentDelta b p _ _ => some (b, p)
  | .heartbeat b p _ => some (b, p)
  | .reportStats b p _ => some (b, p)
  | .reportPeerFailure b p _ => some (b, p)
  | _ => none

/-- The counters a report leaves with its peer. -/
def StoreOp.countersAfter (before : PeerTrafficStats) : StoreOp → PeerTrafficStats
  | .reportStats _ _ stats => sanitizePeerTrafficStats stats
  | _ => before

namespace TrackerStore

/-- Everything a call can do. -/
inductive CallEffect (s : TrackerStore) (t : Timestamp) : StoreOp → TrackerStore → Prop where
  | kept (op : StoreOp) : CallEffect s t op s
  | registered (registration : BroadcastRegistration) :
      CallEffect s t (.registerBroadcast registration) (s.registerBroadcast t registration).1
  | unregistered (id : BroadcastId) :
      CallEffect s t (.unregisterBroadcast id) { s with broadcasts := s.broadcasts.delete id }
  | left (b : BroadcastId) (p : PeerId) :
      CallEffect s t (.leavePeer b p) (s.retirePeers [⟨b, p⟩])
  | swept (maxAgeMs : ℕ) :
      CallEffect s t (.removeStalePeers maxAgeMs) (s.retirePeers (s.stalePeers (t - maxAgeMs)))
  | joined {b : BroadcastId} {request : PeerJoinRequest} {options : JoinPeerOptions}
      {state : BroadcastState} (hs : s.broadcasts.get? b = some state) :
      CallEffect s t (.joinPeer b request options)
        (s.setPeer b state request.id
          ⟨joinedPeer request ((state.peers.get? request.id).map PeerState.peer) t,
            ((state.peers.get? request.id).map PeerState.stats).getD 0⟩)
  | written {op : StoreOp} {b : BroadcastId} {p : PeerId} {state : BroadcastState}
      {old new : PeerState} {failureConsensus : PeerFailureConsensus}
      (htarget : op.target = some (b, p))
      (hs : s.broadcasts.get? b = some state) (hp : state.peers.get? p = some old)
      (hseen : new.peer.lastSeenAt = t ∨ new.peer.lastSeenAt = old.peer.lastSeenAt)
      (hstats : new.stats = op.countersAfter old.stats) :
      CallEffect s t op { s.setPeer b state p new with failureConsensus }

/-- What the reports share that change a required peer in place. -/
theorem CallEffect.of_modifyPeer {s s' : TrackerStore} {t : Timestamp} {op : StoreOp}
    {b : BroadcastId} {p : PeerId} {f : PeerState → PeerState} {peer : Peer}
    (htarget : op.target = some (b, p)) (hseen : ∀ old, (f old).peer.lastSeenAt = t)
    (hstats : ∀ old, (f old).stats = op.countersAfter old.stats)
    (hok : s.modifyPeer b p f = .ok (s', peer)) : CallEffect s t op s' := by
  obtain ⟨state, old, hs, hp, rfl, -⟩ := modifyPeer_ok.mp hok
  show CallEffect s t op { s.setPeer b state p (f old) with
    failureConsensus := s.failureConsensus }
  exact .written htarget hs hp (Or.inl (hseen old)) (hstats old)

/-- A failure report leaves its peer's counters and times alone, confirmed or not. -/
theorem CallEffect.of_reportPeerFailure {s s' : TrackerStore} {now : Timestamp}
    {b : BroadcastId} {p : PeerId} {report : PeerFailureReport} {peer : Peer}
    (hok : s.reportPeerFailure now b p report = .ok (s', peer)) :
    CallEffect s now (.reportPeerFailure b p report) s' := by
  unfold reportPeerFailure at hok
  cases hr : s.requirePeer b p with
  | error e => simp [hr] at hok
  | ok found =>
      obtain ⟨state, old⟩ := found
      obtain ⟨hs, hp⟩ := requirePeer_ok.mp hr
      cases hreporter : s.requirePeer b report.reporterId with
      | error e => simp [hr, hreporter] at hok
      | ok reporter =>
          rw [hr, hreporter] at hok
          generalize s.failureConsensus.observe now b p report = observed at hok
          obtain ⟨failureConsensus, confirmed⟩ := observed
          dsimp only at hok
          cases confirmed with
          | false =>
              obtain ⟨rfl, -⟩ := Prod.mk.inj (Except.ok.inj hok)
              have hset : s.setPeer b state p old = s := by
                unfold setPeer
                rw [OrderedMap.set_of_get? hp, OrderedMap.set_of_get? hs]
              have hwritten : CallEffect s now (.reportPeerFailure b p report)
                  { s.setPeer b state p old with failureConsensus } :=
                .written rfl hs hp (Or.inr rfl) rfl
              rw [hset] at hwritten
              exact hwritten
          | true =>
              rw [if_pos rfl] at hok
              obtain ⟨state', old', hs', hp', rfl, -⟩ := modifyPeer_ok.mp hok
              obtain rfl : state' = state := Option.some.inj (hs'.symm.trans hs)
              exact .written rfl hs hp' (Or.inr rfl) rfl

/-- **Every call has one of these effects.** -/
theorem next_effect (s : TrackerStore) (maxSegmentsPerPeer : ℕ) (t : Timestamp) (op : StoreOp) :
    CallEffect s t op ((backend maxSegmentsPerPeer).next s t op) := by
  have hkept : CallEffect s t op s := .kept op
  cases op with
  | registerBroadcast registration => exact .registered registration
  | unregisterBroadcast id =>
      refine stateAfter_writing (P := CallEffect s t _) hkept fun s' hok => ?_
      change s.unregisterBroadcast id = _ at hok
      unfold unregisterBroadcast at hok
      split_ifs at hok with hid
      obtain rfl := Except.ok.inj hok
      exact .unregistered id
  | joinPeer b request options =>
      change CallEffect s t _ (stateAfter s (returning (fun x => .joined x.1 x.2)
        (s.joinPeerDetailed t b request options)))
      refine stateAfter_returning (P := CallEffect s t _) hkept ?_
      rintro s' ⟨peer, already⟩ hok
      obtain ⟨state, hs, -, rfl, -, rfl⟩ := joinPeerDetailed_ok.mp hok
      exact .joined hs
  | leavePeer b p =>
      refine stateAfter_writing (P := CallEffect s t _) hkept fun s' hok => ?_
      obtain ⟨-, rfl⟩ := leavePeer_ok.mp hok
      exact .left b p
  | removeStalePeers maxAgeMs =>
      have hnext : (backend maxSegmentsPerPeer).next s t (.removeStalePeers maxAgeMs)
          = s.retirePeers (s.stalePeers (t - maxAgeMs)) := by
        change (s.removeStalePeers t maxAgeMs).1 = _
        rw [removeStalePeers_eq]
      rw [hnext]
      exact .swept maxAgeMs
  | reportSegments b p segments replace =>
      refine stateAfter_returning (P := CallEffect s t _) hkept fun s' peer hok => ?_
      have hmodify : s.reportSegments t b p segments replace = .ok (s', peer) := hok
      refine .of_modifyPeer rfl ?_ ?_ hmodify <;> exact fun _ => rfl
  | applySegmentDelta b p added removed =>
      refine stateAfter_returning (P := CallEffect s t _) hkept fun s' peer hok => ?_
      have hmodify : s.applySegmentDelta t b p added removed = .ok (s', peer) := hok
      refine .of_modifyPeer rfl ?_ ?_ hmodify <;> exact fun _ => rfl
  | heartbeat b p heartbeat =>
      refine stateAfter_returning (P := CallEffect s t _) hkept fun s' peer hok => ?_
      have hmodify : s.heartbeat t b p heartbeat = .ok (s', peer) := hok
      refine .of_modifyPeer rfl ?_ ?_ hmodify <;> exact fun _ => rfl
  | reportStats b p stats =>
      refine stateAfter_writing (P := CallEffect s t _) hkept fun s' hok => ?_
      change (s.reportStats t b p stats).map Prod.fst = _ at hok
      cases hr : s.reportStats t b p stats with
      | error e => simp [hr, Except.map] at hok
      | ok result =>
          rw [hr] at hok
          obtain rfl := Except.ok.inj hok
          refine .of_modifyPeer rfl ?_ ?_ hr <;> exact fun _ => rfl
  | reportPeerFailure b p report =>
      refine stateAfter_returning (P := CallEffect s t _) hkept fun s' a hok => ?_
      exact .of_reportPeerFailure hok
  | listBroadcasts => exact stateAfter_reading (P := CallEffect s t _) hkept
  | getBroadcast id => exact stateAfter_reading (P := CallEffect s t _) hkept
  | listPeers b => exact stateAfter_reading (P := CallEffect s t _) hkept
  | listPeersWithSegment b segment => exact stateAfter_reading (P := CallEffect s t _) hkept
  | getPeer b p => exact stateAfter_reading (P := CallEffect s t _) hkept
  | listPeerStats b => exact stateAfter_reading (P := CallEffect s t _) hkept
  | getBroadcastStats b => exact stateAfter_reading (P := CallEffect s t _) hkept
  | getGlobalStats => exact stateAfter_reading (P := CallEffect s t _) hkept

end TrackerStore

end OpenStreamGrid
