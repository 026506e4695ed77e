import OpenStreamGrid.Lib.SnapshotCounter
import OpenStreamGrid.Tracker.TrafficConservation

/-!
# Exported traffic counters

`TrackerMetrics` exports five traffic totals as counters that never fall while
the store's totals fall with every removed broadcast: each synchronization adds
what the global totals gained since the previous one. The REST stats route, the
DELETE route and every scrape synchronize; a WebSocket stats report and the
lease sweep do not, and what they skip is never exported.
-/

namespace OpenStreamGrid

/-! ## The metrics -/

/-- The traffic totals with a counter of their own. -/
inductive ExportedCounter where
  | p2pRequests
  | originRequests
  | p2pSuccesses
  | integrityFailures
  | fallbacks
deriving DecidableEq

/-- A sample as the exposition shows it. -/
structure MetricSample where
  name : String
  type : String
  help : String
  value : ℕ
deriving DecidableEq

namespace ExportedCounter

/-- In the order of the exposition. -/
def all : List ExportedCounter :=
  [.p2pRequests, .originRequests, .p2pSuccesses, .integrityFailures, .fallbacks]

instance : Fintype ExportedCounter where
  elems := ⟨all, by decide⟩
  complete := by rintro (_ | _) <;> decide

def key : ExportedCounter → PeerTrafficStatKey
  | .p2pRequests => .p2pRequests
  | .originRequests => .originRequests
  | .p2pSuccesses => .p2pSuccesses
  | .integrityFailures => .integrityFailures
  | .fallbacks => .fallbacks

def name : ExportedCounter → String
  | .p2pRequests => "openstreamgrid_p2p_requests_total"
  | .originRequests => "openstreamgrid_origin_requests_total"
  | .p2pSuccesses => "openstreamgrid_p2p_successes_total"
  | .integrityFailures => "openstreamgrid_integrity_failures_total"
  | .fallbacks => "openstreamgrid_fallbacks_total"

def help : ExportedCounter → String
  | .p2pRequests => "P2P segment requests reported by peers."
  | .originRequests => "Origin segment requests reported by peers."
  | .p2pSuccesses => "Successful P2P segment requests reported by peers."
  | .integrityFailures => "Segment integrity failures reported by peers."
  | .fallbacks => "Origin fallbacks reported by peers."

def sample (c : ExportedCounter) (value : ℕ) : MetricSample := ⟨c.name, "counter", c.help, value⟩

end ExportedCounter

/-- `total` is `p2pRequestsTotal` and its four siblings. -/
structure TrackerMetrics where
  total : ExportedCounter → ℕ
  lastReportedTraffic : ExportedCounter → ℕ

namespace TrackerMetrics

def new : TrackerMetrics := ⟨fun _ => 0, fun _ => 0⟩

/-- Add what the global totals gained; truncated subtraction is `Math.max(0, …)`. -/
def synchronizeTraffic (m : TrackerMetrics) (current : PeerTrafficStats) : TrackerMetrics where
  total := fun c => m.total c + (current c.key - m.lastReportedTraffic c)
  lastReportedTraffic := fun c => current c.key

/-- The traffic samples of a scrape, which synchronizes first. -/
def render (m : TrackerMetrics) (current : PeerTrafficStats) :
    TrackerMetrics × List MetricSample :=
  let synchronized := m.synchronizeTraffic current
  (synchronized, ExportedCounter.all.map fun c => c.sample (synchronized.total c))

/-- One of the five, as a counter fed from snapshots. -/
def counter (m : TrackerMetrics) (c : ExportedCounter) : SnapshotCounter :=
  ⟨m.total c, m.lastReportedTraffic c⟩

@[simp] theorem counter_synchronizeTraffic (m : TrackerMetrics) (current : PeerTrafficStats)
    (c : ExportedCounter) :
    (m.synchronizeTraffic current).counter c = (m.counter c).snapshot (current c.key) := rfl

/-- A scrape shows what is due of every counter. -/
theorem render_samples (m : TrackerMetrics) (current : PeerTrafficStats) :
    (m.render current).2
      = ExportedCounter.all.map fun c => c.sample ((m.counter c).due (current c.key)) := rfl

end TrackerMetrics

/-! ## The tracker around them -/

/-- A store and its metrics, beside the totals of every broadcast at its removal. -/
structure MetricsState (σ : Type) where
  store : σ
  metrics : TrackerMetrics
  removed : List (BroadcastId × PeerTrafficStats)

/-- What reaches the store or the metrics. A `call` stands for any other route,
message or disconnect; `removeStalePeers` is the cleanup timer with its two
clock readings. -/
inductive MetricsEvent where
  | call (timestamp : Timestamp) (op : StoreOp)
  | restStats (timestamp : Timestamp) (broadcastId : BroadcastId) (peerId : PeerId)
      (stats : TrafficRecord JsNumber)
  | webSocketStats (timestamp : Timestamp) (broadcastId : BroadcastId) (peerId : PeerId)
      (stats : TrafficRecord JsNumber)
  | deleteBroadcast (broadcastId : BroadcastId)
  | removeStalePeers (timestamp nowMs : Timestamp)
  | scrape

/-- The store calls that have an event of their own. -/
def StoreOp.synchronizedElsewhere : StoreOp → Bool
  | .unregisterBroadcast _ => true
  | .reportStats _ _ _ => true
  | .removeStalePeers _ => true
  | _ => false

/-- An origin's registration whose lease has run out; a text `Date.parse` rejects never does. -/
def Broadcast.leaseExpired (dateParse : String → Option Timestamp) (broadcast : Broadcast)
    (nowMs : Timestamp) : Bool :=
  match broadcast.metadata with
  | none => false
  | some metadata =>
      match metadata.get? "leaseExpiresAt" with
      | none => false
      | some lease =>
          metadata.get? "owner" = some "origin" && lease ≠ "" &&
            (dateParse lease).any fun expiry => decide (expiry ≤ nowMs)

namespace TrackerStoreBackend

variable {σ : Type} (T : TrackerStoreBackend σ)

/-- The traffic part of `getGlobalStats`. -/
def globalTraffic (s : σ) : PeerTrafficStats := (T.getGlobalStats s).2.stats

/-- Unregister a broadcast, whose totals are noted; `none` is a throwing call. -/
def removeBroadcast (s : MetricsState σ) (id : BroadcastId) : Option (MetricsState σ) :=
  match T.unregisterBroadcast s.store id with
  | .error _ => none
  | .ok store => some { s with store, removed := s.removed ++ [(id, T.statsOf s.store id)] }

/-- The loop over expired leases, which an exception would end. -/
def removeExpired (s : MetricsState σ) : List Broadcast → MetricsState σ
  | [] => s
  | broadcast :: rest =>
      match T.removeBroadcast s broadcast.id with
      | none => s
      | some next => removeExpired next rest

def synchronize (s : MetricsState σ) : MetricsState σ :=
  { s with metrics := s.metrics.synchronizeTraffic (T.globalTraffic s.store) }

def metricsStep (stalePeerMs : ℕ) (dateParse : String → Option Timestamp) (s : MetricsState σ) :
    MetricsEvent → Option (MetricsState σ)
  | .call t op =>
      if op.synchronizedElsewhere then none else some { s with store := T.next s.store t op }
  | .restStats t b p stats =>
      match T.reportStats s.store t b p stats with
      | .error _ => some s
      | .ok store => some (T.synchronize { s with store })
  | .webSocketStats t b p stats =>
      match T.reportStats s.store t b p stats with
      | .error _ => some s
      | .ok store => some { s with store }
  | .deleteBroadcast id =>
      match T.removeBroadcast (T.synchronize s) id with
      | none => some (T.synchronize s)
      | some next => some (T.synchronize next)
  | .removeStalePeers t nowMs =>
      let swept := { s with store := (T.removeStalePeers s.store t stalePeerMs).1 }
      some (T.removeExpired swept
        ((T.listBroadcasts swept.store).filter fun broadcast =>
          broadcast.leaseExpired dateParse nowMs))
  | .scrape => some { s with metrics := (s.metrics.render (T.globalTraffic s.store)).1 }

/-- The runs of a tracker that starts empty. -/
def metricsSystem (stalePeerMs : ℕ) (dateParse : String → Option Timestamp) :
    TransitionSystem (MetricsState σ) MetricsEvent where
  init s := s = ⟨T.new, .new, []⟩
  step := T.metricsStep stalePeerMs dateParse

/-- A scrape of this state shows, for every traffic total, what the removed
broadcasts had at their removal plus what the stored ones have. -/
def LosesNothing (s : MetricsState σ) : Prop :=
  ∃ broadcasts : Finset BroadcastId,
    (∀ b, b ∈ broadcasts ↔ ∃ totals, T.getBroadcastStats s.store b = .ok totals) ∧
      (s.metrics.render (T.globalTraffic s.store)).2 = ExportedCounter.all.map fun c =>
        c.sample ((s.removed.map fun x => x.2 c.key).sum
          + ∑ b ∈ broadcasts, T.statsOf s.store b c.key)

variable (counters : σ → BroadcastId → PeerId → Option PeerTrafficStats)

/-- No counter that a report brings is below the one stored for its peer; a peer
that joins starts from zero. -/
def ReportsGrow (s : MetricsState σ) : MetricsEvent → Prop
  | .restStats _ b p stats | .webSocketStats _ b p stats =>
      ∀ previous, counters s.store b p = some previous →
        previous ≤ sanitizePeerTrafficStats stats
  | _ => True

/-- A report raises only counters whose global total has not fallen since the
latest synchronization, and a sweep removes only traffic that synchronization
has seen. -/
def NothingSkipped (dateParse : String → Option Timestamp) (s : MetricsState σ) :
    MetricsEvent → Prop
  | .restStats _ b p stats | .webSocketStats _ b p stats =>
      ∀ c : ExportedCounter, ∀ previous, counters s.store b p = some previous →
        previous c.key < sanitizePeerTrafficStats stats c.key →
          s.metrics.lastReportedTraffic c ≤ T.globalTraffic s.store c.key
  | .removeStalePeers _ nowMs =>
      ∀ c : ExportedCounter, ∀ broadcast ∈ T.listBroadcasts s.store,
        broadcast.leaseExpired dateParse nowMs → 0 < T.statsOf s.store broadcast.id c.key →
          T.globalTraffic s.store c.key ≤ s.metrics.lastReportedTraffic c
  | _ => True

instance (s : MetricsState σ) : ∀ e, Decidable (ReportsGrow counters s e)
  | .restStats _ b p stats | .webSocketStats _ b p stats =>
      inferInstanceAs (Decidable (∀ previous ∈ counters s.store b p, ∀ key,
        previous key ≤ sanitizePeerTrafficStats stats key))
  | .call _ _ | .deleteBroadcast _ | .removeStalePeers _ _ | .scrape => isTrue trivial

instance (dateParse : String → Option Timestamp) (s : MetricsState σ) :
    ∀ e, Decidable (T.NothingSkipped counters dateParse s e)
  | .restStats _ b p stats | .webSocketStats _ b p stats =>
      inferInstanceAs (Decidable (∀ c : ExportedCounter, ∀ previous ∈ counters s.store b p,
        previous c.key < sanitizePeerTrafficStats stats c.key →
          s.metrics.lastReportedTraffic c ≤ T.globalTraffic s.store c.key))
  | .removeStalePeers _ nowMs =>
      inferInstanceAs (Decidable (∀ c : ExportedCounter, ∀ broadcast ∈ T.listBroadcasts s.store,
        broadcast.leaseExpired dateParse nowMs → 0 < T.statsOf s.store broadcast.id c.key →
          T.globalTraffic s.store c.key ≤ s.metrics.lastReportedTraffic c))
  | .call _ _ | .deleteBroadcast _ | .scrape => isTrue trivial

end TrackerStoreBackend

end OpenStreamGrid
