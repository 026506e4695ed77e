import OpenStreamGrid.Lib.Overwrite
import OpenStreamGrid.Tracker.ReportAdmission

/-!
# The inventory reporting protocol

A peer's client and the tracker, with the messages in flight between them. The
client reports changes against what it last sent; the tracker applies what
arrives. `Consistent` says that the reports still in flight, applied in order to
what is stored, lead to what the client believes to have reported. It survives
every step except those that lose, refuse or reorder a report, and the removal
of an inventory that is not empty: after these the client goes on reporting
changes against a base the tracker does not hold.
-/

namespace OpenStreamGrid

/-! ## The tracker's side -/

/-- What a client sends over its socket. -/
inductive ClientMessage where
  | subscribe
  | heartbeat (heartbeat : PeerHeartbeat)
  | reportStats (stats : TrafficRecord JsNumber)
  | reportSegments (report : SegmentReport)
deriving DecidableEq

/-- What `handleMessage` finds wrong with a heartbeat's numbers. -/
def heartbeatError (heartbeat : PeerHeartbeat) : Option String :=
  if heartbeat.latencyMs.any (fun v => decide (v < 0)) then
    some "'latencyMs' must be non-negative"
  else if heartbeat.uploadBandwidthBps.any (fun v => decide (v < 0)) then
    some "'uploadBandwidthBps' must be non-negative"
  else if heartbeat.successRate.any (fun v => decide (v < 0 ∨ v > 1)) then
    some "'successRate' must be between 0 and 1"
  else none

/-- The answers of the two rate limiters. -/
structure RateLimits where
  withinBudget : Bool
  admitted : Bool
deriving DecidableEq

/-- A message from the peer's own socket: the next store and whether the socket
is subscribed, or the reason for which the socket is closed. -/
def handleClientMessage (store : TrackerStore) (subscribed : Bool) (limits : RateLimits)
    (timestamp : Timestamp) (broadcastId : BroadcastId) (peerId : PeerId)
    (message : ClientMessage) : Except String (TrackerStore × Bool) :=
  if limits.withinBudget = false then .error "Message rate limit exceeded"
  else
    match message with
    | .subscribe =>
        if (store.getPeer broadcastId peerId).isSome then .ok (store, true)
        else .error "Subscription does not match the authenticated peer session"
    | .heartbeat heartbeat =>
        if subscribed = false then .error "Message does not match the WebSocket subscription"
        else
          match heartbeatError heartbeat with
          | some reason => .error reason
          | none =>
              match store.heartbeat timestamp broadcastId peerId heartbeat with
              | .error e => .error e.message
              | .ok (store', _) => .ok (store', subscribed)
    | .reportStats stats =>
        if subscribed = false then .error "Message does not match the WebSocket subscription"
        else
          match store.reportStats timestamp broadcastId peerId stats with
          | .error e => .error e.message
          | .ok (store', _) => .ok (store', subscribed)
    | .reportSegments report =>
        if report.payload.utf8ByteSize > MAX_WEB_SOCKET_PAYLOAD_BYTES then
          .error "Max payload size exceeded"
        else if subscribed = false then
          .error "Message does not match the WebSocket subscription"
        else
          match TrackerWebSocketHub.handleReportSegments store limits.admitted timestamp
              broadcastId peerId report.message with
          | .error reason => .error reason
          | .ok (store', _) => .ok (store', subscribed)

/-! ## Both sides -/

/-- A message in flight on a socket, with the segments the client held as it
was sent: these do not travel. -/
structure InFlight where
  socket : ℕ
  message : ClientMessage
  computedFrom : OrderedSet SegmentId
deriving DecidableEq

/-- The report in flight, with the segments it was computed from. -/
def InFlight.report? (m : InFlight) : Option (SegmentReport × OrderedSet SegmentId) :=
  match m.message with
  | .reportSegments report => some (report, m.computedFrom)
  | _ => none

structure Reporting where
  client : PeerClient
  /-- What `segments()` returns. -/
  segments : List SegmentId
  /-- The client's open socket. -/
  socket : Option ℕ
  /-- How many sockets were opened so far; they are numbered. -/
  opened : ℕ
  /-- In the order sent, over all sockets. -/
  inFlight : List InFlight
  store : TrackerStore
  subscribed : List ℕ
  /-- What the report processed last was computed from. -/
  processed : Option (OrderedSet SegmentId)

/-- What a status report carries; a part that is not sent is absent. -/
structure StatusReport where
  heartbeat : Option PeerHeartbeat
  stats : Option (TrafficRecord JsNumber)
  canSend : Bool
deriving DecidableEq

inductive ReportingEvent where
  | segmentsChanged (segments : List SegmentId)
  /-- The client joins, first or by its session refresh. -/
  | joined (timestamp : Timestamp) (request : PeerJoinRequest) (options : JoinPeerOptions)
  | socketOpened (status : StatusReport)
  | statusReported (status : StatusReport)
  | segmentsReported (canSend : Bool)
  | reportingEnabled (status : StatusReport)
  /-- The next message of a socket reaches the tracker. -/
  | arrived (socket : ℕ) (timestamp : Timestamp) (limits : RateLimits)
  /-- The client's socket closes: of the messages in flight on it only the
  first `delivered` still reach the tracker. -/
  | socketClosed (delivered : ℕ)
  | stalePeersRemoved (now : Timestamp) (maxAgeMs : ℤ)
  /-- Anything the tracker does for another peer or broadcast. -/
  | otherOperation (op : InventoryOp)

/-- The peer an operation is about. -/
def InventoryOp.target : InventoryOp → Option (BroadcastId × PeerId)
  | .registerBroadcast _ _ => none
  | .joinPeer _ b request _ => some (b, request.id)
  | .reportSegments _ b p _ _ => some (b, p)
  | .applySegmentDelta _ b p _ _ => some (b, p)
  | .leavePeer b p => some (b, p)

/-- The first `delivered` messages of a socket, and all of the others. -/
def truncate (socket : ℕ) : ℕ → List InFlight → List InFlight
  | _, [] => []
  | delivered, m :: rest =>
      if m.socket ≠ socket then m :: truncate socket delivered rest
      else
        match delivered with
        | 0 => truncate socket 0 rest
        | delivered + 1 => m :: truncate socket delivered rest

namespace Reporting

def peer? (s : Reporting) : Option Peer := s.store.getPeer s.client.broadcastId s.client.peerId

/-- The inventory stored for the peer. -/
def inventory (s : Reporting) : List SegmentId := (s.peer?.map Peer.segments).getD []

/-- The reports in flight, in the order sent. -/
def pending (s : Reporting) : List (SegmentReport × OrderedSet SegmentId) :=
  s.inFlight.filterMap InFlight.report?

/-- `send`: nothing happens without an open socket. -/
def send (s : Reporting) (message : ClientMessage) : Reporting :=
  match s.socket with
  | none => s
  | some socket =>
      { s with inFlight := s.inFlight ++ [⟨socket, message, OrderedSet.ofList s.segments⟩] }

def reportSegments (s : Reporting) (canSend : Bool) : Reporting :=
  match s.client.reportSegments s.segments (canSend && s.socket.isSome) with
  | (client, none) => { s with client := client }
  | (client, some report) => { s with client := client }.send (.reportSegments report)

/-- Heartbeat, stats and segments, as far as the client reports its state. -/
def reportStatus (s : Reporting) (status : StatusReport) : Reporting :=
  if s.client.reportPeerState = false then s
  else
    let s := (status.heartbeat.map fun h => s.send (.heartbeat h)).getD s
    let s := (status.stats.map fun stats => s.send (.reportStats stats)).getD s
    s.reportSegments status.canSend

/-- The tracker handles the next message of a socket. A refusal closes the
socket, which the client learns from a later `socketClosed`. -/
def handleArrival (s : Reporting) (m : InFlight) (timestamp : Timestamp) (limits : RateLimits) :
    Reporting :=
  match handleClientMessage s.store (decide (m.socket ∈ s.subscribed)) limits timestamp
      s.client.broadcastId s.client.peerId m.message with
  | .error _ => s
  | .ok (store, subscribed) =>
      { s with
        store := store
        subscribed := if subscribed then s.subscribed.insert m.socket else s.subscribed
        processed := (m.report?.map Prod.snd).orElse fun _ => s.processed }

def step (s : Reporting) : ReportingEvent → Option Reporting
  | .segmentsChanged segments => some { s with segments := segments }
  | .joined timestamp request options =>
      if request.id ≠ s.client.peerId then none
      else
        some { s with
          store := s.store.applyOp (.joinPeer timestamp s.client.broadcastId request options) }
  | .socketOpened status =>
      if s.socket.isSome ∨ s.peer?.isNone then none
      else
        let s := { s with socket := some s.opened, opened := s.opened + 1 }
        some ((s.send .subscribe).reportStatus status)
  | .statusReported status => some (s.reportStatus status)
  | .segmentsReported canSend => some (s.reportSegments canSend)
  | .reportingEnabled status =>
      if s.client.reportPeerState then some s
      else some ({ s with client := s.client.enablePeerStateReporting }.reportStatus status)
  | .arrived socket timestamp limits =>
      match s.inFlight.find? (fun m => decide (m.socket = socket)) with
      | none => none
      | some m =>
          some
            ({ s with inFlight := s.inFlight.eraseP fun m => decide (m.socket = socket) }.handleArrival
              m timestamp limits)
  | .socketClosed delivered =>
      match s.socket with
      | none => none
      | some socket =>
          some { s with socket := none, inFlight := truncate socket delivered s.inFlight }
  | .stalePeersRemoved now maxAgeMs =>
      some { s with store := (s.store.removeStalePeers now maxAgeMs).1 }
  | .otherOperation op =>
      if op.target = some (s.client.broadcastId, s.client.peerId) then none
      else some { s with store := s.store.applyOp op }

/-- A client that has reported nothing yet, of a peer without an inventory. -/
def system : TransitionSystem Reporting ReportingEvent where
  init s := s.client.Fresh ∧ s.inFlight = [] ∧ s.socket = none ∧ s.processed = none ∧
    s.inventory = []
  step := step

/-- With no report in flight, the tracker stores what the report it processed
last was computed from. -/
def StoredAsComputed (s : Reporting) : Prop :=
  s.pending = [] → ∀ current ∈ s.processed, s.inventory.toFinset = current.toList.toFinset

instance (s : Reporting) : Decidable s.StoredAsComputed :=
  inferInstanceAs (Decidable (_ → ∀ _ ∈ _, _))

/-! ## Which steps keep both sides together -/

/-- The stored inventory the report merges into stays within the caps. -/
def FitsStore (s : Reporting) (report : SegmentReport) : Prop :=
  ∀ peer ∈ s.peer?, WithinCaps s.store.maxSegmentsPerPeer (report.message.merged peer.segments)

/-- No report that arrives reaches a store cap. -/
def CapsNotReached (s : Reporting) : ReportingEvent → Prop
  | .arrived socket _ _ =>
      ∀ m ∈ s.inFlight.find? (fun m => decide (m.socket = socket)),
        ∀ found ∈ m.report?, s.FitsStore found.1
  | _ => True

/-- No report is lost, refused or overtaken by a younger one of another socket,
and the peer is removed as stale only while nothing is stored for it. -/
def NothingLost (s : Reporting) : ReportingEvent → Prop
  | .arrived socket _ limits =>
      ∀ m ∈ s.inFlight.find? (fun m => decide (m.socket = socket)), ∀ found ∈ m.report?,
        limits.withinBudget = true ∧ limits.admitted = true ∧ socket ∈ s.subscribed ∧
          found.1.Admissible ∧ s.peer?.isSome = true ∧
          (s.inFlight.takeWhile fun m => decide (m.socket ≠ socket)).filterMap InFlight.report? = []
  | .socketClosed delivered =>
      ∀ socket ∈ s.socket,
        (truncate socket delivered s.inFlight).filterMap InFlight.report? = s.pending
  | .stalePeersRemoved now maxAgeMs =>
      ∀ peer ∈ s.peer?, peer.lastSeenAt < now - maxAgeMs → s.inventory = []
  | _ => True

/-- Applying the reports in order to what is stored passes through the sets
they were computed from and ends at `last`. -/
def Leads : Set SegmentId → List (SegmentReport × OrderedSet SegmentId) → Set SegmentId → Prop
  | stored, [], last => stored = last
  | stored, (report, computedFrom) :: rest, last =>
      (Overwrite.delta report.added report.removed).apply stored = {x | x ∈ computedFrom} ∧
        Leads {x | x ∈ computedFrom} rest last

theorem Leads.append {report : SegmentReport} {computedFrom : OrderedSet SegmentId} :
    ∀ {reports : List (SegmentReport × OrderedSet SegmentId)} {stored last : Set SegmentId},
      Leads stored reports last →
      (Overwrite.delta report.added report.removed).apply last = {x | x ∈ computedFrom} →
      Leads stored (reports ++ [(report, computedFrom)]) {x | x ∈ computedFrom}
  | [], _, _, h, hnext => ⟨h ▸ hnext, rfl⟩
  | _ :: _, _, _, h, hnext => ⟨h.1, h.2.append hnext⟩

end Reporting

theorem SegmentReport.Describes.apply_delta {r : SegmentReport}
    {last current : OrderedSet SegmentId} (h : r.Describes last current) :
    (Overwrite.delta r.added r.removed).apply {x | x ∈ last} = {x | x ∈ current} := by
  ext x
  simp only [Overwrite.mem_apply_delta, Set.mem_ofPred_eq, h.added, h.removed]
  tauto

namespace Reporting

/-- The two sides agree up to the reports in flight. -/
structure Consistent (s : Reporting) : Prop where
  leads : Leads {x | x ∈ s.inventory} s.pending {x | x ∈ s.client.lastReportedSegments}
  processed : ∀ current ∈ s.processed, ∀ x, x ∈ s.inventory ↔ x ∈ current

theorem Consistent.storedAsComputed {s : Reporting} (h : s.Consistent) : s.StoredAsComputed := by
  intro _ current hcurrent
  ext x
  simpa using h.processed current hcurrent x

/-- A step that moves no report and leaves the peer's inventory as it was. -/
theorem Consistent.congr {s s' : Reporting} (h : s.Consistent)
    (hpending : s'.pending = s.pending)
    (hlast : s'.client.lastReportedSegments = s.client.lastReportedSegments)
    (hinventory : s'.inventory = s.inventory) (hprocessed : s'.processed = s.processed) :
    s'.Consistent where
  leads := by
    rw [hpending, hlast, hinventory]
    exact h.leads
  processed := by
    rw [hprocessed, hinventory]
    exact h.processed

/-! ## The client's steps -/

variable {s : Reporting}

theorem Consistent.send (h : s.Consistent) {message : ClientMessage}
    (hmessage : ∀ report, message ≠ .reportSegments report) : (s.send message).Consistent := by
  unfold Reporting.send
  cases s.socket with
  | none => exact h
  | some socket =>
      have hnone : InFlight.report? ⟨socket, message, OrderedSet.ofList s.segments⟩ = none := by
        cases message with
        | reportSegments report => exact absurd rfl (hmessage report)
        | _ => rfl
      refine h.congr ?_ rfl rfl rfl
      simp only [pending, List.filterMap_append, List.filterMap_cons, hnone, List.filterMap_nil,
        List.append_nil]

theorem Consistent.reportSegments (h : s.Consistent) (canSend : Bool) :
    (s.reportSegments canSend).Consistent := by
  unfold Reporting.reportSegments
  cases hreport : s.client.reportSegments s.segments (canSend && s.socket.isSome) with
  | mk client report =>
      obtain ⟨hsame, ⟨rfl, hlast⟩ | ⟨r, rfl, hsend, -, -, -, hlast, hdesc⟩⟩ :=
        PeerClient.reportSegments_spec hreport
      · refine h.congr rfl hlast ?_ rfl
        simp only [inventory, peer?, hsame.broadcastId, hsame.peerId]
      · obtain ⟨socket, hsocket⟩ := Option.isSome_iff_exists.mp (Bool.and_eq_true_iff.mp hsend).2
        have hinventory : ∀ socket inFlight,
            inventory { s with client, socket, inFlight } = s.inventory := by
          intro socket inFlight
          simp only [inventory, peer?, hsame.broadcastId, hsame.peerId]
        simp only [Reporting.send, hsocket]
        refine ⟨?_, ?_⟩
        · rw [hinventory]
          simp only [pending, List.filterMap_append, List.filterMap_cons, InFlight.report?,
            List.filterMap_nil, hlast]
          exact h.leads.append hdesc.apply_delta
        · intro current hcurrent x
          rw [hinventory]
          exact h.processed current hcurrent x

theorem Consistent.reportStatus (h : s.Consistent) (status : StatusReport) :
    (s.reportStatus status).Consistent := by
  unfold Reporting.reportStatus
  split_ifs
  · exact h
  have hheartbeat : ((status.heartbeat.map fun x => s.send (.heartbeat x)).getD s).Consistent := by
    cases status.heartbeat with
    | none => exact h
    | some x => exact h.send fun _ => by simp
  generalize (status.heartbeat.map fun x => s.send (.heartbeat x)).getD s = t at hheartbeat
  have hstats : ((status.stats.map fun x => t.send (.reportStats x)).getD t).Consistent := by
    cases status.stats with
    | none => exact hheartbeat
    | some x => exact hheartbeat.send fun _ => by simp
  exact hstats.reportSegments status.canSend

/-! ## The tracker's steps -/

/-- The inventory a store holds for a peer. -/
theorem inventory_eq (s : Reporting) : s.inventory =
    ((s.store.peerState? s.client.broadcastId s.client.peerId).map
      fun peerState => peerState.peer.segments).getD [] := by
  unfold inventory peer? TrackerStore.getPeer
  rw [Option.map_map]
  rfl

/-- An update of a peer that keeps its segments keeps its inventory. -/
theorem inventory_updated {store' : TrackerStore} {b : BroadcastId} {p : PeerId}
    {new : Option PeerState} (hs : s.store.PeerUpdated store' b p new)
    (hnew : b = s.client.broadcastId → p = s.client.peerId →
      (new.map fun peerState => peerState.peer.segments).getD [] = s.inventory) :
    inventory { s with store := store' } = s.inventory := by
  rw [inventory_eq]
  change ((store'.peerState? s.client.broadcastId s.client.peerId).map
      fun peerState => peerState.peer.segments).getD [] = _
  rw [hs.peerState?]
  split_ifs with hbp
  · exact hnew hbp.1.symm hbp.2.symm
  · rw [inventory_eq]

/-- Operations about other peers. -/
theorem peerState?_applyOp_of_ne {store : TrackerStore} {op : InventoryOp} {b : BroadcastId}
    {p : PeerId} (hne : op.target ≠ some (b, p)) :
    (store.applyOp op).peerState? b p = store.peerState? b p := by
  have hframe : ∀ {store' : TrackerStore} {b' : BroadcastId} {p' : PeerId} {new},
      store.PeerUpdated store' b' p' new → some (b', p') ≠ some (b, p) →
      store'.peerState? b p = store.peerState? b p := by
    intro store' b' p' new hs hother
    rw [hs.peerState?, if_neg]
    rintro ⟨rfl, rfl⟩
    exact hother rfl
  cases op with
  | registerBroadcast t registration => exact TrackerStore.peerState?_registerBroadcast ..
  | joinPeer t b' request options =>
      simp only [TrackerStore.applyOp]
      cases hj : store.joinPeerDetailed t b' request options with
      | error e => rfl
      | ok result =>
          obtain ⟨state, hs, -, -, -, hs'⟩ := TrackerStore.joinPeerDetailed_ok.mp hj
          rw [stateAfter, hs']
          exact hframe (TrackerStore.peerUpdated_setPeer hs _ _) hne
  | reportSegments t b' p' segments replace =>
      simp only [TrackerStore.applyOp]
      cases hr : store.reportSegments t b' p' segments replace with
      | error e => rfl
      | ok result =>
          obtain ⟨_, -, -, hs⟩ := TrackerStore.modifyPeer_updated hr
          exact hframe hs hne
  | applySegmentDelta t b' p' added removed =>
      simp only [TrackerStore.applyOp]
      cases hr : store.applySegmentDelta t b' p' added removed with
      | error e => rfl
      | ok result =>
          obtain ⟨_, -, -, hs⟩ := TrackerStore.modifyPeer_updated hr
          exact hframe hs hne
  | leavePeer b' p' =>
      simp only [TrackerStore.applyOp]
      cases hl : store.leavePeer b' p' with
      | error e => rfl
      | ok store' =>
          rw [(TrackerStore.leavePeer_ok.mp hl).2]
          exact hframe TrackerStore.peerUpdated_retirePeer hne

/-- A message that is no report leaves every inventory alone. -/
theorem inventory_handleClientMessage {subscribed subscribed' : Bool} {limits : RateLimits}
    {t : Timestamp} {message : ClientMessage} {store' : TrackerStore}
    (hmessage : ∀ report, message ≠ .reportSegments report)
    (h : handleClientMessage s.store subscribed limits t s.client.broadcastId s.client.peerId
      message = .ok (store', subscribed')) :
    inventory { s with store := store' } = s.inventory := by
  have hmodify : ∀ {f : PeerState → PeerState} {peer : Peer} {store' : TrackerStore},
      s.store.modifyPeer s.client.broadcastId s.client.peerId f = .ok (store', peer) →
      (∀ peerState, (f peerState).peer.segments = peerState.peer.segments) →
      inventory { s with store := store' } = s.inventory := by
    intro f peer store' hr hf
    obtain ⟨peerState, hp, -, hs⟩ := TrackerStore.modifyPeer_updated hr
    refine inventory_updated hs fun _ _ => ?_
    rw [inventory_eq, hp, Option.map_some, Option.map_some, hf]
  unfold handleClientMessage at h
  by_cases hbudget : limits.withinBudget = false
  · rw [if_pos hbudget] at h
    exact nomatch h
  rw [if_neg hbudget] at h
  cases message with
  | subscribe =>
      dsimp only at h
      split_ifs at h
      rw [← (Prod.mk.inj (Except.ok.inj h)).1]
  | heartbeat heartbeat =>
      dsimp only at h
      split_ifs at h
      cases herror : heartbeatError heartbeat with
      | some reason => simp [herror] at h
      | none =>
          simp only [herror] at h
          cases hr : s.store.heartbeat t s.client.broadcastId s.client.peerId heartbeat with
          | error e => simp [hr] at h
          | ok result =>
              simp only [hr] at h
              rw [← (Prod.mk.inj (Except.ok.inj h)).1]
              exact hmodify hr fun _ => rfl
  | reportStats stats =>
      dsimp only at h
      split_ifs at h
      cases hr : s.store.reportStats t s.client.broadcastId s.client.peerId stats with
      | error e => simp [hr] at h
      | ok result =>
          simp only [hr] at h
          rw [← (Prod.mk.inj (Except.ok.inj h)).1]
          exact hmodify hr fun _ => rfl
  | reportSegments report => exact absurd rfl (hmessage report)

/-- A report that is not refused and reaches no cap is carried out. -/
theorem handleClientMessage_report {limits : RateLimits} {t : Timestamp} {report : SegmentReport}
    (hbudget : limits.withinBudget = true) (hadmitted : limits.admitted = true)
    (hadmissible : report.Admissible) (hpeer : s.peer?.isSome = true)
    (hfits : s.FitsStore report) :
    ∃ store', handleClientMessage s.store true limits t s.client.broadcastId s.client.peerId
        (.reportSegments report) = .ok (store', true) ∧
      {x | x ∈ inventory { s with store := store' }} =
        (Overwrite.delta report.added report.removed).apply {x | x ∈ s.inventory} := by
  obtain ⟨hadded, hremoved⟩ := hadmissible.requiredSegments
  unfold peer? TrackerStore.getPeer at hpeer
  rw [Option.isSome_map] at hpeer
  obtain ⟨⟨store', peer⟩, hdelta⟩ :
      ∃ result, s.store.applySegmentDelta t s.client.broadcastId s.client.peerId report.added
        report.removed = .ok result := TrackerStore.modifyPeer_isOk_iff.mpr hpeer
  obtain ⟨peerState, hp, -, hs⟩ := TrackerStore.modifyPeer_updated hdelta
  have hstored : s.inventory = peerState.peer.segments := by
    rw [inventory_eq, hp, Option.map_some, Option.getD_some]
  have hcaps : WithinCaps s.store.maxSegmentsPerPeer
      (mergedDelta s.inventory report.added report.removed) := by
    rw [hstored]
    exact hfits _ (by simp [peer?, TrackerStore.getPeer, hp])
  refine ⟨store', ?_, ?_⟩
  · unfold handleClientMessage TrackerWebSocketHub.handleReportSegments
    rw [hbudget, hadmitted]
    simp only [SegmentReport.message] at hadded hremoved ⊢
    simp only [Bool.true_eq_false, if_false, not_lt.mpr hadmissible.1, Option.isSome_some, true_or,
      if_true, Option.getD_some, hadded, hremoved, hdelta]
  · have hinventory : inventory { s with store := store' }
        = mergedDelta s.inventory report.added report.removed := by
      rw [inventory_eq]
      change ((store'.peerState? s.client.broadcastId s.client.peerId).map
        fun peerState => peerState.peer.segments).getD [] = _
      rw [hs.peerState?, if_pos ⟨rfl, rfl⟩, Option.map_some, Option.getD_some]
      rw [hstored] at hcaps ⊢
      exact limitInventory_eq_self_iff.mpr hcaps
    ext x
    rw [hinventory]
    simp only [Set.mem_ofPred_eq, mem_mergedDelta, Overwrite.mem_apply_delta]

/-- Where the next message of a socket stands among those in flight. -/
theorem exists_arrival {inFlight : List InFlight} {socket : ℕ} {m : InFlight}
    (h : inFlight.find? (fun m => decide (m.socket = socket)) = some m) :
    ∃ before after, inFlight = before ++ m :: after ∧ m.socket = socket ∧
      inFlight.eraseP (fun m => decide (m.socket = socket)) = before ++ after ∧
      inFlight.takeWhile (fun m => decide (m.socket ≠ socket)) = before := by
  obtain ⟨hm, before, after, rfl, hbefore⟩ := List.find?_eq_some_iff_append.mp h
  have hsocket : m.socket = socket := of_decide_eq_true hm
  have hother : ∀ x ∈ before, x.socket ≠ socket := fun x hx => by simpa using hbefore x hx
  refine ⟨before, after, rfl, hsocket, ?_, ?_⟩
  · rw [List.eraseP_append_right _ fun x hx => by simpa using hother x hx]
    exact congrArg _ (List.eraseP_cons_of_pos hm)
  · rw [List.takeWhile_append_of_pos fun x hx => by simpa using hother x hx,
      List.takeWhile_cons_of_neg (by simpa using hsocket), List.append_nil]

theorem Consistent.arrived (h : s.Consistent) {socket : ℕ} {t : Timestamp} {limits : RateLimits}
    {m : InFlight} (hm : s.inFlight.find? (fun m => decide (m.socket = socket)) = some m)
    (hok : s.NothingLost (.arrived socket t limits))
    (hcaps : s.CapsNotReached (.arrived socket t limits)) :
    ({ s with inFlight := s.inFlight.eraseP fun m => decide (m.socket = socket) }.handleArrival
      m t limits).Consistent := by
  obtain ⟨before, after, hall, hsocket, herase, htake⟩ := exists_arrival hm
  have hpending : s.pending = before.filterMap InFlight.report? ++
      (m.report?.toList ++ after.filterMap InFlight.report?) := by
    unfold pending
    rw [hall, List.filterMap_append, List.filterMap_cons]
    cases m.report? <;> rfl
  have hrest : pending { s with inFlight := before ++ after } =
      before.filterMap InFlight.report? ++ after.filterMap InFlight.report? :=
    List.filterMap_append
  rw [herase]
  unfold handleArrival
  cases hreport : m.report? with
  | none =>
      have hmessage : ∀ report, m.message ≠ .reportSegments report := by
        intro report heq
        simp [InFlight.report?, heq] at hreport
      rw [hreport, Option.toList_none, List.nil_append, ← hrest] at hpending
      cases hhandle : handleClientMessage s.store (decide (m.socket ∈ s.subscribed)) limits t
          s.client.broadcastId s.client.peerId m.message with
      | error e => exact h.congr hpending.symm rfl rfl rfl
      | ok result =>
          exact h.congr hpending.symm rfl (inventory_handleClientMessage hmessage hhandle) rfl
  | some found =>
      obtain ⟨report, computedFrom⟩ := found
      obtain ⟨hbudget, hadmitted, hsubscribed, hadmissible, hpeer, hfirst⟩ :=
        hok m hm (report, computedFrom) hreport
      have hmessage : m.message = .reportSegments report ∧ m.computedFrom = computedFrom := by
        unfold InFlight.report? at hreport
        cases hmessage : m.message with
        | reportSegments report' =>
            simp only [hmessage, Option.some.injEq, Prod.mk.injEq] at hreport
            exact ⟨by rw [hreport.1], hreport.2⟩
        | _ => simp [hmessage] at hreport
      obtain ⟨store', hhandle, hstored⟩ := handleClientMessage_report (t := t) hbudget hadmitted
        hadmissible hpeer (hcaps m hm (report, computedFrom) hreport)
      -- nothing older is in flight, so the report is the first of the chain
      rw [htake] at hfirst
      rw [hreport, hfirst, List.nil_append, Option.toList_some, List.singleton_append] at hpending
      rw [hfirst, List.nil_append] at hrest
      have hleads := h.leads
      rw [hpending] at hleads
      have hsame : {x | x ∈ inventory { s with store := store' }} = {x | x ∈ computedFrom} :=
        hstored.trans hleads.1
      rw [hmessage.1, hsocket, decide_eq_true hsubscribed, hhandle]
      refine ⟨?_, ?_⟩
      · change Leads {x | x ∈ inventory { s with store := store' }}
          (pending { s with inFlight := before ++ after }) _
        rw [hrest, hsame]
        exact hleads.2
      · intro current hcurrent x
        obtain rfl := Option.some.inj hcurrent
        exact Set.ext_iff.mp hsame x

theorem Consistent.stalePeersRemoved (h : s.Consistent) {now : Timestamp} {maxAgeMs : ℤ}
    (hok : s.NothingLost (.stalePeersRemoved now maxAgeMs)) :
    Consistent { s with store := (s.store.removeStalePeers now maxAgeMs).1 } := by
  refine h.congr rfl rfl ?_ rfl
  rw [inventory_eq]
  change (((s.store.removeStalePeers now maxAgeMs).1.peerState? s.client.broadcastId
    s.client.peerId).map fun peerState => peerState.peer.segments).getD [] = _
  rw [TrackerStore.removeStalePeers_eq, TrackerStore.peerState?_retirePeers]
  split_ifs with hstale
  · obtain ⟨peerState, hp, hold⟩ := TrackerStore.mem_stalePeers.mp hstale
    have hempty := hok peerState.peer (by simp [peer?, TrackerStore.getPeer, hp]) hold
    rw [hempty, Option.map_none, Option.getD_none]
  · rw [inventory_eq]

theorem Consistent.joined (h : s.Consistent) (t : Timestamp) (request : PeerJoinRequest)
    (options : JoinPeerOptions) :
    Consistent { s with
      store := s.store.applyOp (.joinPeer t s.client.broadcastId request options) } := by
  refine h.congr rfl rfl ?_ rfl
  simp only [TrackerStore.applyOp]
  cases hj : s.store.joinPeerDetailed t s.client.broadcastId request options with
  | error e => rfl
  | ok result =>
      obtain ⟨state, hs, -, hpeer, -, hs'⟩ := TrackerStore.joinPeerDetailed_ok.mp hj
      rw [stateAfter, hs']
      refine inventory_updated (TrackerStore.peerUpdated_setPeer hs _ _) fun _ hp => ?_
      have hfound : s.store.peerState? s.client.broadcastId s.client.peerId
          = state.peers.get? request.id := by
        rw [← hp]
        simp [TrackerStore.peerState?, hs]
      rw [inventory_eq, hfound, hpeer]
      cases state.peers.get? request.id <;> rfl

theorem Consistent.step {s' : Reporting} (h : s.Consistent) {e : ReportingEvent}
    (hok : s.NothingLost e) (hcaps : s.CapsNotReached e) (hstep : s.step e = some s') :
    s'.Consistent := by
  cases e with
  | segmentsChanged segments =>
      obtain rfl := Option.some.inj hstep
      exact h.congr rfl rfl rfl rfl
  | joined t request options =>
      simp only [Reporting.step] at hstep
      split_ifs at hstep
      obtain rfl := Option.some.inj hstep
      exact h.joined t request options
  | socketOpened status =>
      simp only [Reporting.step] at hstep
      split_ifs at hstep
      obtain rfl := Option.some.inj hstep
      refine Consistent.reportStatus (Consistent.send ?_ fun _ => by simp) status
      exact h.congr rfl rfl rfl rfl
  | statusReported status =>
      obtain rfl := Option.some.inj hstep
      exact h.reportStatus status
  | segmentsReported canSend =>
      obtain rfl := Option.some.inj hstep
      exact h.reportSegments canSend
  | reportingEnabled status =>
      simp only [Reporting.step] at hstep
      split_ifs at hstep
      · obtain rfl := Option.some.inj hstep
        exact h
      · obtain rfl := Option.some.inj hstep
        refine Consistent.reportStatus ?_ status
        refine h.congr rfl ?_ ?_ rfl
        · cases s.client <;> rfl
        · unfold inventory peer?
          cases s.client <;> rfl
  | arrived socket t limits =>
      simp only [Reporting.step] at hstep
      cases hm : s.inFlight.find? (fun m => decide (m.socket = socket)) with
      | none => simp [hm] at hstep
      | some m =>
          simp only [hm, Option.some.injEq] at hstep
          exact hstep ▸ h.arrived hm hok hcaps
  | socketClosed delivered =>
      simp only [Reporting.step] at hstep
      cases hsocket : s.socket with
      | none => simp [hsocket] at hstep
      | some socket =>
          simp only [hsocket, Option.some.injEq] at hstep
          subst hstep
          exact h.congr (hok socket hsocket) rfl rfl rfl
  | stalePeersRemoved now maxAgeMs =>
      obtain rfl := Option.some.inj hstep
      exact h.stalePeersRemoved hok
  | otherOperation op =>
      simp only [Reporting.step] at hstep
      split_ifs at hstep with hother
      obtain rfl := Option.some.inj hstep
      refine h.congr rfl rfl ?_ rfl
      rw [inventory_eq, inventory_eq]
      change (((s.store.applyOp op).peerState? s.client.broadcastId s.client.peerId).map
        fun peerState => peerState.peer.segments).getD [] = _
      rw [peerState?_applyOp_of_ne hother]

/-- **The tracker stores what the client reported** in every run in which no
report is lost, refused or overtaken and no inventory is removed as stale. -/
theorem stored_as_computed {s : Reporting}
    (hr : system.Reachable (fun s e => s.NothingLost e ∧ s.CapsNotReached e) s) :
    s.StoredAsComputed := by
  refine (hr.invariant Consistent ?_ ?_).storedAsComputed
  · rintro s ⟨hfresh, hflight, -, hprocessed, hinventory⟩
    refine ⟨?_, fun current hcurrent => ?_⟩
    · unfold pending
      rw [hflight, hinventory]
      change {x | x ∈ ([] : List SegmentId)} = {x | x ∈ s.client.lastReportedSegments}
      rw [show s.client.lastReportedSegments = ∅ from hfresh]
      rfl
    · rw [hprocessed] at hcurrent
      exact nomatch hcurrent
  · rintro s e s' h ⟨hok, hcaps⟩ hstep
    exact h.step hok hcaps hstep

/-! ## Two runs -/

instance (s : Reporting) (report : SegmentReport) : Decidable (s.FitsStore report) :=
  inferInstanceAs (Decidable (∀ _ ∈ _, _))

instance (report : SegmentReport) : Decidable report.Admissible :=
  inferInstanceAs (Decidable (_ ∧ _))

instance (s : Reporting) : ∀ e, Decidable (s.CapsNotReached e)
  | .arrived _ _ _ => inferInstanceAs (Decidable (∀ _ ∈ _, ∀ _ ∈ _, _))
  | .segmentsChanged _ | .joined _ _ _ | .socketOpened _ | .statusReported _
  | .segmentsReported _ | .reportingEnabled _ | .socketClosed _ | .stalePeersRemoved _ _
  | .otherOperation _ => isTrue trivial

instance (s : Reporting) : ∀ e, Decidable (s.NothingLost e)
  | .arrived _ _ _ => inferInstanceAs (Decidable (∀ _ ∈ _, ∀ _ ∈ _, _ ∧ _))
  | .socketClosed _ => inferInstanceAs (Decidable (∀ _ ∈ _, _ = _))
  | .stalePeersRemoved _ _ => inferInstanceAs (Decidable (∀ _ ∈ _, _ → _))
  | .segmentsChanged _ | .joined _ _ _ | .socketOpened _ | .statusReported _
  | .segmentsReported _ | .reportingEnabled _ | .otherOperation _ => isTrue trivial

/-- A Node client of peer `p`, and a tracker that knows nothing yet. -/
def start : Reporting :=
  ⟨.node ⟨"live", "p", ∅⟩, [], none, 0, [], .new 10, [], none⟩

def endOf (events : List ReportingEvent) : Reporting := (system.run start events).getD start

theorem run_endOf {events : List ReportingEvent} (h : (system.run start events).isSome = true) :
    system.run start events = some (endOf events) := by
  obtain ⟨s, hs⟩ := Option.isSome_iff_exists.mp h
  rw [endOf, hs, Option.getD_some]

def reportOnly : StatusReport := ⟨none, none, true⟩

def accept (socket : ℕ) (timestamp : Timestamp) : ReportingEvent :=
  .arrived socket timestamp ⟨true, true⟩

/-- The peer joins, connects with one segment and has its report processed. -/
def firstReport : List ReportingEvent :=
  [.otherOperation (.registerBroadcast 0 ⟨"live", "https://origin/live.m3u8", none⟩),
    .joined 0 ⟨"p", "http://p", none, none⟩ ⟨none⟩, .segmentsChanged ["seg1.ts"],
    .socketOpened reportOnly, accept 0 1, accept 0 1]

theorem stored_as_computed_first : (endOf firstReport).StoredAsComputed :=
  stored_as_computed ((TransitionSystem.Reachable.init
    (show system.init start from ⟨rfl, rfl, rfl, rfl, rfl⟩)).append_run
    (show system.RunOk _ start firstReport by decide +kernel) (run_endOf (by decide +kernel)))

/-- Then it is removed as stale, re-joins, reconnects and reports a second one. -/
def reportAfterRemoval : List ReportingEvent :=
  firstReport ++
    [.socketClosed 0, .stalePeersRemoved 1000 100, .joined 1001 ⟨"p", "http://p", none, none⟩ ⟨none⟩,
      .segmentsChanged ["seg1.ts", "seg2.ts"], .socketOpened reportOnly, accept 1 1002, accept 1 1002]

/-- The tracker has forgotten the inventory that the client still builds on. -/
theorem report_after_removal_incomplete :
    ¬ ∀ s : Reporting, system.Reachable CapsNotReached s → s.StoredAsComputed := by
  intro h
  have hr : system.Reachable CapsNotReached (endOf reportAfterRemoval) :=
    (TransitionSystem.Reachable.init
      (show system.init start from ⟨rfl, rfl, rfl, rfl, rfl⟩)).append_run
      (show system.RunOk _ start reportAfterRemoval by decide +kernel)
      (run_endOf (by decide +kernel))
  have hbad : ¬ (endOf reportAfterRemoval).StoredAsComputed := by decide +kernel
  exact hbad (h _ hr)

end Reporting

end OpenStreamGrid
