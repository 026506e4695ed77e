import OpenStreamGrid.Common.Types

/-!
# Segment reports of the clients

A client reports what changed since the last report it sent. The Node
`TrackerClient` and the browser `WsTrackerClient` compute the same change; the
browser client stays silent until its reporting is enabled.
`PeerClient.reportSegments_spec` is everything a report can do.
-/

namespace OpenStreamGrid

/-- A `report_segments` message as the clients send it. -/
structure SegmentReport where
  broadcastId : BroadcastId
  peerId : PeerId
  added : List SegmentId
  removed : List SegmentId
deriving DecidableEq

/-- What both clients do: the segments remembered as reported, and the message.
Nothing is sent, and nothing remembered, when nothing changed or `send` fails. -/
def reportChanges (broadcastId : BroadcastId) (peerId : PeerId)
    (lastReportedSegments : OrderedSet SegmentId) (segments : List SegmentId) (canSend : Bool) :
    OrderedSet SegmentId × Option SegmentReport :=
  let current := OrderedSet.ofList segments
  let added := current.toList.filter fun segment => decide (segment ∉ lastReportedSegments)
  let removed := lastReportedSegments.toList.filter fun segment => decide (segment ∉ current)
  if added = [] ∧ removed = [] then (lastReportedSegments, none)
  else if canSend then (current, some ⟨broadcastId, peerId, added, removed⟩)
  else (lastReportedSegments, none)

/-- The Node client. -/
structure TrackerClient where
  broadcastId : BroadcastId
  peerId : PeerId
  lastReportedSegments : OrderedSet SegmentId
deriving DecidableEq

def TrackerClient.reportSegments (c : TrackerClient) (segments : List SegmentId)
    (canSend : Bool) : TrackerClient × Option SegmentReport :=
  let (last, report) :=
    reportChanges c.broadcastId c.peerId c.lastReportedSegments segments canSend
  ({ c with lastReportedSegments := last }, report)

/-- The browser client. -/
structure WsTrackerClient where
  broadcastId : BroadcastId
  peerId : PeerId
  lastReportedSegments : OrderedSet SegmentId
  reportPeerState : Bool
deriving DecidableEq

def WsTrackerClient.reportSegments (c : WsTrackerClient) (segments : List SegmentId)
    (canSend : Bool) : WsTrackerClient × Option SegmentReport :=
  if c.reportPeerState = false then (c, none)
  else
    let (last, report) :=
      reportChanges c.broadcastId c.peerId c.lastReportedSegments segments canSend
    ({ c with lastReportedSegments := last }, report)

/-- Enables reports after REST registration. -/
def WsTrackerClient.enablePeerStateReporting (c : WsTrackerClient) : WsTrackerClient :=
  { c with reportPeerState := true }

/-- Either client of a peer. -/
inductive PeerClient where
  | node (client : TrackerClient)
  | browser (client : WsTrackerClient)
deriving DecidableEq

namespace PeerClient

def broadcastId : PeerClient → BroadcastId
  | node c => c.broadcastId
  | browser c => c.broadcastId

def peerId : PeerClient → PeerId
  | node c => c.peerId
  | browser c => c.peerId

def lastReportedSegments : PeerClient → OrderedSet SegmentId
  | node c => c.lastReportedSegments
  | browser c => c.lastReportedSegments

/-- Whether the client reports its state at all. -/
def reportPeerState : PeerClient → Bool
  | node _ => true
  | browser c => c.reportPeerState

def reportSegments (c : PeerClient) (segments : List SegmentId) (canSend : Bool) :
    PeerClient × Option SegmentReport :=
  match c with
  | node c => ((c.reportSegments segments canSend).map node id)
  | browser c => ((c.reportSegments segments canSend).map browser id)

def enablePeerStateReporting : PeerClient → PeerClient
  | node c => node c
  | browser c => browser c.enablePeerStateReporting

/-- A client that has reported nothing yet. -/
def Fresh (c : PeerClient) : Prop := c.lastReportedSegments = ∅

end PeerClient

/-! ## What a report says -/

/-- The report describes the change from `last` to `current`. -/
structure SegmentReport.Describes (r : SegmentReport) (last current : OrderedSet SegmentId) :
    Prop where
  added : ∀ x, x ∈ r.added ↔ x ∈ current ∧ x ∉ last
  removed : ∀ x, x ∈ r.removed ↔ x ∈ last ∧ x ∉ current
  nodup_added : r.added.Nodup
  nodup_removed : r.removed.Nodup
  changed : r.added ≠ [] ∨ r.removed ≠ []

theorem reportChanges_some {b : BroadcastId} {p : PeerId} {last last' : OrderedSet SegmentId}
    {segments : List SegmentId} {canSend : Bool} {r : SegmentReport}
    (h : reportChanges b p last segments canSend = (last', some r)) :
    canSend = true ∧ last' = OrderedSet.ofList segments ∧ r.broadcastId = b ∧ r.peerId = p ∧
      r.Describes last (OrderedSet.ofList segments) := by
  unfold reportChanges at h
  dsimp only at h
  split_ifs at h with hsame hsend
  · simp at h
  · simp only [Prod.mk.injEq, Option.some.injEq] at h
    obtain ⟨rfl, rfl⟩ := h
    refine ⟨hsend, rfl, rfl, rfl, ⟨fun x => ?_, fun x => ?_,
      (OrderedSet.nodup _).filter _, (OrderedSet.nodup _).filter _, not_and_or.mp hsame⟩⟩
    · simp
    · simp
  · simp at h

theorem reportChanges_none {b : BroadcastId} {p : PeerId} {last last' : OrderedSet SegmentId}
    {segments : List SegmentId} {canSend : Bool}
    (h : reportChanges b p last segments canSend = (last', none)) : last' = last := by
  unfold reportChanges at h
  dsimp only at h
  split_ifs at h
  · exact (Prod.mk.inj h).1.symm
  · simp at h
  · exact (Prod.mk.inj h).1.symm

namespace PeerClient

/-- The identity of a client is fixed. -/
structure SameIdentity (c c' : PeerClient) : Prop where
  broadcastId : c'.broadcastId = c.broadcastId
  peerId : c'.peerId = c.peerId

/-- **Everything a report can do**: nothing, or it sends the exact change since
the last report sent and remembers the current segments. -/
theorem reportSegments_spec {c c' : PeerClient} {segments : List SegmentId} {canSend : Bool}
    {report : Option SegmentReport} (h : c.reportSegments segments canSend = (c', report)) :
    c.SameIdentity c' ∧
      (report = none ∧ c'.lastReportedSegments = c.lastReportedSegments ∨
        ∃ r, report = some r ∧ canSend = true ∧ c.reportPeerState = true ∧
          r.broadcastId = c.broadcastId ∧ r.peerId = c.peerId ∧
          c'.lastReportedSegments = OrderedSet.ofList segments ∧
          r.Describes c.lastReportedSegments (OrderedSet.ofList segments)) := by
  cases c with
  | node c =>
      cases hr : reportChanges c.broadcastId c.peerId c.lastReportedSegments segments canSend with
      | mk last found =>
          simp only [reportSegments, TrackerClient.reportSegments, hr, Prod.map, id_eq,
            Prod.mk.injEq] at h
          obtain ⟨rfl, rfl⟩ := h
          refine ⟨⟨rfl, rfl⟩, ?_⟩
          cases found with
          | none => exact Or.inl ⟨rfl, reportChanges_none hr⟩
          | some r =>
              obtain ⟨hsend, hlast, hb, hp, hdesc⟩ := reportChanges_some hr
              exact Or.inr ⟨r, rfl, hsend, rfl, hb, hp, hlast, hdesc⟩
  | browser c =>
      by_cases hoff : c.reportPeerState = false
      · simp only [reportSegments, WsTrackerClient.reportSegments, if_pos hoff, Prod.map, id_eq,
          Prod.mk.injEq] at h
        obtain ⟨rfl, rfl⟩ := h
        exact ⟨⟨rfl, rfl⟩, Or.inl ⟨rfl, rfl⟩⟩
      · cases hr : reportChanges c.broadcastId c.peerId c.lastReportedSegments segments canSend with
        | mk last found =>
            simp only [reportSegments, WsTrackerClient.reportSegments, if_neg hoff, hr, Prod.map,
              id_eq, Prod.mk.injEq] at h
            obtain ⟨rfl, rfl⟩ := h
            refine ⟨⟨rfl, rfl⟩, ?_⟩
            cases found with
            | none => exact Or.inl ⟨rfl, reportChanges_none hr⟩
            | some r =>
                obtain ⟨hsend, hlast, hb, hp, hdesc⟩ := reportChanges_some hr
                have hon : c.reportPeerState = true := Bool.eq_true_of_not_eq_false hoff
                exact Or.inr ⟨r, rfl, hsend, hon, hb, hp, hlast, hdesc⟩

end PeerClient

end OpenStreamGrid
