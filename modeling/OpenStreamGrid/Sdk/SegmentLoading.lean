import OpenStreamGrid.Lib.TimedSystem
import OpenStreamGrid.Sdk.Schedulers

/-!
# Loading a segment in the browser

`loadUncachedSegment` from its plan on, event by event: probes of up to three
peers run in parallel, each answer is checked against the hash sidecar, a budget
timer ends the peer phase of a relaxed plan and a hedge timer starts the origin
request of a hedged one. What happens in one go (the microtasks after an event)
is one step; requests that are aborted end with the step that aborts them. The
consumers keep waiting.
-/

namespace OpenStreamGrid

namespace Sdk

def PEER_PHASE_SAFETY_MARGIN_MS : ℚ := 200

/-- What the plugin knows when it plans a load. -/
structure HlsPlugin where
  peerId : PeerId
  originLatencyEstimateMs : ℚ≥0
  peerTimeoutMs : ℚ≥0
  /-- WebRTC connections are possible. -/
  webRtcPeer : Bool
  /-- There are hashes to verify segments with. -/
  verifier : Bool

structure PeerCandidate where
  peer : Peer
  segmentId : SegmentId

/-! ## Planning -/

def schedulingContext (plugin : HlsPlugin) (candidates : List PeerCandidate)
    (deadline : Option SegmentDeadline) : SegmentSchedulingContext where
  segmentId := (candidates.head?.map PeerCandidate.segmentId).getD ""
  segmentsAhead := none
  deadline := deadline
  candidates := candidates.zipIdx.map fun indexed =>
    let peer := indexed.1.peer
    { id := peer.id
      latencyMs := peer.latencyMs
      successRate := peer.successRate
      uploadBandwidthBps := (peer.uploadBandwidthBps.map fun bps => (bps : ℚ)).getD 0
      trustScore := peer.trustScore
      segments :=
        if indexed.1.segmentId ∈ peer.segments then peer.segments
        else peer.segments ++ [indexed.1.segmentId]
      originalIndex := some indexed.2 }
  selfPeerId := plugin.peerId
  maximumParallelism := MAX_PARALLEL_PEER_PROBES

/-- The default scheduler, over the plugin's own estimate. -/
def scheduler : SegmentScheduler (Unit × JsNumber) SegmentSchedulingPlan :=
  DeadlineAwareScheduler.scheduler TrustLatencyProbeScheduler.scheduler .default

def planPeerFetch (plugin : HlsPlugin) (candidates : List PeerCandidate)
    (deadline : Option SegmentDeadline) : SegmentSchedulingPlan × List PeerCandidate :=
  let plan := (planSegmentSafely scheduler (schedulingContext plugin candidates deadline)
    ((), .finite plugin.originLatencyEstimateMs)).1.1
  let candidatesById := candidates.foldl (fun byId candidate => byId.set candidate.peer.id candidate)
    (∅ : OrderedMap PeerId PeerCandidate)
  let plannedPeerIds := if plan.mode = .origin then [] else plan.peerIds
  (plan, (plannedPeerIds.take MAX_PARALLEL_PEER_PROBES).filterMap candidatesById.get?)

/-- Time the peer phase may use before the origin must start, given the deadline slack. -/
def peerPhaseBudgetMs (plugin : HlsPlugin) (deadlineSlackMs : Option ℚ) : Option ℚ≥0 :=
  deadlineSlackMs.map fun slackMs =>
    (max 0 (slackMs - plugin.originLatencyEstimateMs - PEER_PHASE_SAFETY_MARGIN_MS)).toNNRat

/-! ## Probes -/

/-- One attempt to fetch the segment from a peer. An HTTP request has its own timer until the
body has arrived. -/
inductive Probe where
  | requesting (timeoutAt : Option ℚ≥0)
  | verifying
  | delivered
  | failed
deriving DecidableEq

inductive ProbeEvent where
  /-- The complete answer arrives, whatever bytes it has, -/
  | answers
  /-- or an error does, or the answer cannot be accepted. -/
  | fails
  | timesOut
  | hashMatches
  /-- The bytes differ from the published hash, or there is no hash to be had. -/
  | hashFails
deriving DecidableEq

namespace Probe

def start (plugin : HlsPlugin) (candidate : PeerCandidate) : Probe :=
  let webRtcOnly := candidate.peer.address.startsWith "webrtc:" ||
    (candidate.peer.metadata.bind (·.get? "transport")) = some "webrtc"
  .requesting (if plugin.webRtcPeer && webRtcOnly then none else some plugin.peerTimeoutMs)

def timers : Probe → List ℚ≥0
  | .requesting timeoutAt => timeoutAt.toList
  | _ => []

def step (verifier : Bool) (clock : ℚ≥0) : Probe → ProbeEvent → Option Probe
  | .requesting _, .answers => some (if verifier then .verifying else .delivered)
  | .requesting _, .fails => some .failed
  | .requesting (some timeoutAt), .timesOut => if timeoutAt ≤ clock then some .failed else none
  | .verifying, .hashMatches => some .delivered
  | .verifying, .hashFails => some .failed
  | _, _ => none

end Probe

/-! ## The load -/

/-- The origin request of a hedged load. -/
inductive HedgeStage where
  | waiting (startAt : ℚ≥0)
  | outstanding
  | failed
deriving DecidableEq

inductive LoadStage where
  /-- Peers alone, until one delivers, all fail or the budget is used up. -/
  | probing (probes : List Probe) (budgetEndsAt : Option ℚ≥0)
  | hedging (probes : List Probe) (origin : HedgeStage)
  | fetchingOrigin
  | settled
deriving DecidableEq

structure SegmentLoad where
  stage : LoadStage
  originStartedAt : Option ℚ≥0
  /-- When verified bytes of a peer were there. -/
  peerBytesAt : Option ℚ≥0
deriving DecidableEq

inductive LoadEvent where
  | probe (index : ℕ) (event : ProbeEvent)
  | budgetEnds
  | hedgeStarts
  | originSettles (ok : Bool)
deriving DecidableEq

namespace SegmentLoad

def timers (load : SegmentLoad) : List ℚ≥0 :=
  match load.stage with
  | .probing probes budgetEndsAt => probes.flatMap Probe.timers ++ budgetEndsAt.toList
  | .hedging probes (.waiting startAt) => probes.flatMap Probe.timers ++ [startAt]
  | .hedging probes _ => probes.flatMap Probe.timers
  | _ => []

/-- The origin request starts, with nothing else outstanding. -/
def startOrigin (load : SegmentLoad) (clock : ℚ≥0) : SegmentLoad :=
  { load with stage := .fetchingOrigin, originStartedAt := some clock }

/-- A peer's verified bytes settle the load; everything outstanding is aborted. -/
def deliver (load : SegmentLoad) (clock : ℚ≥0) : SegmentLoad :=
  { load with stage := .settled, peerBytesAt := some clock }

/-- How the probes of a load go on after one of them changed: the first that delivers wins, and
when all have failed only the origin is left. -/
def continueProbes (load : SegmentLoad) (clock : ℚ≥0) (probes : List Probe) : SegmentLoad :=
  match load.stage with
  | .probing _ budgetEndsAt =>
      if .delivered ∈ probes then load.deliver clock
      else if ∀ probe ∈ probes, probe = .failed then load.startOrigin clock
      else { load with stage := .probing probes budgetEndsAt }
  | .hedging _ origin =>
      if .delivered ∈ probes then load.deliver clock
      else if (∀ probe ∈ probes, probe = .failed) ∧ origin = .failed then
        { load with stage := .settled }
      else { load with stage := .hedging probes origin }
  | _ => load

def probes (load : SegmentLoad) : List Probe :=
  match load.stage with
  | .probing probes _ => probes
  | .hedging probes _ => probes
  | _ => []

def step (verifier : Bool) (clock : ℚ≥0) (load : SegmentLoad) : LoadEvent → Option SegmentLoad
  | .probe index event => do
      let probe ← load.probes[index]?
      let probe' ← probe.step verifier clock event
      return load.continueProbes clock (load.probes.set index probe')
  | .budgetEnds =>
      match load.stage with
      | .probing _ (some budgetEndsAt) =>
          if budgetEndsAt ≤ clock then some (load.startOrigin clock) else none
      | _ => none
  | .hedgeStarts =>
      match load.stage with
      | .hedging probes (.waiting startAt) =>
          if startAt ≤ clock then
            some { load with stage := .hedging probes .outstanding, originStartedAt := some clock }
          else none
      | _ => none
  | .originSettles ok =>
      match load.stage with
      | .fetchingOrigin => some { load with stage := .settled }
      | .hedging probes .outstanding =>
          if ok ∨ ∀ probe ∈ probes, probe = .failed then some { load with stage := .settled }
          else some { load with stage := .hedging probes .failed }
      | _ => none

end SegmentLoad

/-- The load as it is when `loadUncachedSegment` has planned it, at time zero. -/
def loadUncachedSegment (plugin : HlsPlugin) (candidates : List PeerCandidate)
    (deadline : Option SegmentDeadline) : SegmentLoad :=
  let (plan, planned) :=
    if candidates.isEmpty then (originPlan "" .noCandidates, [])
    else planPeerFetch plugin candidates deadline
  let probes := planned.map (Probe.start plugin)
  if planned.isEmpty then ⟨.fetchingOrigin, some 0, none⟩
  else
    match plan.execution with
    | some ⟨.hedgedOrigin, _, originHedgeDelayMs, _⟩ =>
        ⟨.hedging probes (.waiting (originHedgeDelayMs.getD 0).toNNRat), none, none⟩
    | execution =>
        ⟨.probing probes (peerPhaseBudgetMs plugin
          (execution.bind SegmentExecutionHints.deadlineSlackMs)), none, none⟩

/-- The last moment to ask the origin, in the plugin's own values: no earlier than now. -/
def latestOriginStart (plugin : HlsPlugin) (slackMs : ℚ) : ℚ≥0 :=
  (max 0 (slackMs - plugin.originLatencyEstimateMs - DeadlineSettings.default.safetyMarginMs)).toNNRat

/-- By `bound` the origin has been asked or verified bytes of a peer were there. -/
def SegmentLoad.MetBy (bound : ℚ≥0) (load : SegmentLoad) : Prop :=
  (∃ started, load.originStartedAt = some started ∧ started ≤ bound) ∨
    ∃ delivered, load.peerBytesAt = some delivered ∧ delivered ≤ bound

/-- While neither has happened, a timer that starts the origin request is armed in time. -/
def SegmentLoad.OnTime (bound clock : ℚ≥0) (load : SegmentLoad) : Prop :=
  match load.stage with
  | .probing _ budgetEndsAt => ∃ due, budgetEndsAt = some due ∧ clock ≤ due ∧ due ≤ bound
  | .hedging _ (.waiting startAt) => clock ≤ startAt ∧ startAt ≤ bound
  | .hedging _ _ | .fetchingOrigin =>
      ∃ started, load.originStartedAt = some started ∧ started ≤ bound
  | .settled => load.MetBy bound

namespace SegmentLoad

variable {verifier : Bool} {bound clock clock' : ℚ≥0} {load load' : SegmentLoad}

theorem OnTime.le_or_metBy (h : load.OnTime bound clock) :
    clock ≤ bound ∨ load.MetBy bound := by
  obtain ⟨stage, originStartedAt, peerBytesAt⟩ := load
  cases stage with
  | probing probes budgetEndsAt =>
      obtain ⟨due, -, hclock, hdue⟩ := h
      exact Or.inl (hclock.trans hdue)
  | hedging probes origin =>
      cases origin with
      | waiting startAt => exact Or.inl (h.1.trans h.2)
      | outstanding => exact Or.inr (Or.inl h)
      | failed => exact Or.inr (Or.inl h)
  | fetchingOrigin => exact Or.inr (Or.inl h)
  | settled => exact Or.inr h

/-- Time that passes no timer leaves a load on time. -/
theorem OnTime.elapse (h : load.OnTime bound clock)
    (htimers : ∀ due ∈ load.timers, clock' ≤ due) : load.OnTime bound clock' := by
  obtain ⟨stage, originStartedAt, peerBytesAt⟩ := load
  cases stage with
  | probing probes budgetEndsAt =>
      obtain ⟨due, rfl, -, hdue⟩ := h
      exact ⟨due, rfl, htimers due (List.mem_append_right _ (List.mem_singleton_self due)), hdue⟩
  | hedging probes origin =>
      cases origin with
      | waiting startAt =>
          exact ⟨htimers startAt (List.mem_append_right _ (List.mem_singleton_self startAt)), h.2⟩
      | outstanding => exact h
      | failed => exact h
  | fetchingOrigin => exact h
  | settled => exact h

/-- However the probes of a load change, it stays on time: a delivery and the last failure both
come before the timer that is armed. -/
theorem OnTime.continueProbes (h : load.OnTime bound clock) (probes : List Probe) :
    (load.continueProbes clock probes).OnTime bound clock := by
  obtain ⟨stage, originStartedAt, peerBytesAt⟩ := load
  unfold SegmentLoad.continueProbes
  cases stage with
  | probing before budgetEndsAt =>
      obtain ⟨due, hbudget, hclock, hdue⟩ := h
      dsimp only
      split_ifs
      · exact Or.inr ⟨clock, rfl, hclock.trans hdue⟩
      · exact ⟨clock, rfl, hclock.trans hdue⟩
      · exact ⟨due, hbudget, hclock, hdue⟩
  | hedging before origin =>
      dsimp only
      cases origin with
      | waiting startAt =>
          split_ifs with hdelivered hfailed
          · exact Or.inr ⟨clock, rfl, h.1.trans h.2⟩
          · cases hfailed.2
          · exact h
      | outstanding =>
          split_ifs with hdelivered hfailed
          · exact Or.inl h
          · exact Or.inl h
          · exact h
      | failed =>
          split_ifs with hdelivered hfailed
          · exact Or.inl h
          · exact Or.inl h
          · exact h
  | fetchingOrigin => exact h
  | settled => exact h

/-- Every event leaves a load on time. -/
theorem OnTime.step {e : LoadEvent} (h : load.OnTime bound clock)
    (hstep : load.step verifier clock e = some load') : load'.OnTime bound clock := by
  cases e with
  | probe index event =>
      obtain ⟨probe, -, hrest⟩ := Option.bind_eq_some_iff.mp hstep
      obtain ⟨probe', -, hload⟩ := Option.bind_eq_some_iff.mp hrest
      obtain rfl := Option.some.inj hload
      exact h.continueProbes _
  | budgetEnds =>
      obtain ⟨stage, originStartedAt, peerBytesAt⟩ := load
      unfold SegmentLoad.step at hstep
      cases stage with
      | probing probes budgetEndsAt =>
          obtain ⟨due, rfl, hclock, hdue⟩ := h
          dsimp only at hstep
          split_ifs at hstep
          obtain rfl := Option.some.inj hstep
          exact ⟨clock, rfl, hclock.trans hdue⟩
      | _ => cases hstep
  | hedgeStarts =>
      obtain ⟨stage, originStartedAt, peerBytesAt⟩ := load
      unfold SegmentLoad.step at hstep
      cases stage with
      | hedging probes origin =>
          cases origin with
          | waiting startAt =>
              dsimp only at hstep
              split_ifs at hstep
              obtain rfl := Option.some.inj hstep
              exact ⟨clock, rfl, h.1.trans h.2⟩
          | outstanding => cases hstep
          | failed => cases hstep
      | _ => cases hstep
  | originSettles ok =>
      obtain ⟨stage, originStartedAt, peerBytesAt⟩ := load
      unfold SegmentLoad.step at hstep
      cases stage with
      | fetchingOrigin =>
          obtain rfl := Option.some.inj hstep
          exact Or.inl h
      | hedging probes origin =>
          cases origin with
          | outstanding =>
              dsimp only at hstep
              split_ifs at hstep
              · obtain rfl := Option.some.inj hstep
                exact Or.inl h
              · obtain rfl := Option.some.inj hstep
                exact h
          | waiting startAt => cases hstep
          | failed => cases hstep
      | _ => cases hstep

theorem probe_timer_fires {due : ℚ≥0} (hdue : due ∈ load.probes.flatMap Probe.timers)
    (hclock : due ≤ clock) : ∃ e load', load.step verifier clock e = some load' := by
  obtain ⟨probe, hprobe, htimer⟩ := List.mem_flatMap.mp hdue
  obtain ⟨i, hi⟩ := List.mem_iff_getElem?.mp hprobe
  have hstep : Probe.step verifier clock probe .timesOut = some .failed := by
    cases probe with
    | requesting timeoutAt =>
        obtain rfl : timeoutAt = some due := Option.mem_toList.mp htimer
        exact if_pos hclock
    | verifying => cases htimer
    | delivered => cases htimer
    | failed => cases htimer
  refine ⟨.probe i .timesOut, load.continueProbes clock (load.probes.set i .failed), ?_⟩
  show (load.probes[i]?.bind fun probe => (probe.step verifier clock .timesOut).bind fun probe' =>
    some (load.continueProbes clock (load.probes.set i probe'))) = _
  rw [hi, Option.bind_some, hstep, Option.bind_some]

/-- A timer that is due can fire, so no run has to stop at one. -/
theorem timer_fires {due : ℚ≥0} (hdue : due ∈ load.timers) (hclock : due ≤ clock) :
    ∃ e load', load.step verifier clock e = some load' := by
  obtain ⟨stage, originStartedAt, peerBytesAt⟩ := load
  cases stage with
  | probing probes budgetEndsAt =>
      rcases List.mem_append.mp hdue with hprobe | hbudget
      · exact probe_timer_fires hprobe hclock
      · obtain rfl : budgetEndsAt = some due := Option.mem_toList.mp hbudget
        exact ⟨.budgetEnds, _, if_pos hclock⟩
  | hedging probes origin =>
      cases origin with
      | waiting startAt =>
          rcases List.mem_append.mp hdue with hprobe | hhedge
          · exact probe_timer_fires hprobe hclock
          · obtain rfl := List.mem_singleton.mp hhedge
            exact ⟨.hedgeStarts, _, if_pos hclock⟩
      | outstanding => exact probe_timer_fires hdue hclock
      | failed => exact probe_timer_fires hdue hclock
  | fetchingOrigin => cases hdue
  | settled => cases hdue

end SegmentLoad

/-- A viewer with a few seconds of buffer and one peer to ask. -/
def bufferedViewer : HlsPlugin := ⟨"viewer", 500, 3000, false, true⟩

def nearPeer : PeerCandidate :=
  ⟨⟨⟨"near", "http://10.0.0.7:8080", none, none⟩, ["segment-7.ts"], 0, 0, 30,
    clampUnitInterval 1, clampUnitInterval 1⟩, "segment-7.ts"⟩

end Sdk

end OpenStreamGrid
