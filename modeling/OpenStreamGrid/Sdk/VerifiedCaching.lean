import Mathlib
import OpenStreamGrid.Common.SegmentHashes
import OpenStreamGrid.Sdk.LoadStatistics
import OpenStreamGrid.Sdk.PartAssembly

/-!
# What the plugin caches

The loads of the plugin, shared by their callers and abandoned by them, and the
assembly of parts, with the sidecars the origin answers with. A buffer gets into
the cache from a peer, from the origin, from the winner of a hedge or from parts;
each was compared with the published hash of a URL that has its cache key.
-/

namespace OpenStreamGrid

namespace Sdk

/-! ## The verifier -/

/-- What the verifier reads of a parsed URL, whose hash it clears. -/
structure AbsoluteUrl where
  origin : String
  pathname : String
  search : String
deriving DecidableEq

/-- `OriginHashVerifier`; the URL constructor and the hash function are parameters. -/
structure OriginHashVerifier where
  parse : String → Option AbsoluteUrl
  sha256 : List UInt8 → List UInt8
  originBaseUrl : AbsoluteUrl
  hashUrlResolver : Option (String → String)

namespace OriginHashVerifier

/-- Where the hash of a segment is published; nowhere for a URL outside the origin's. -/
def hashUrl? (v : OriginHashVerifier) (segmentUrl : String) : Option AbsoluteUrl := do
  let segment ← v.parse segmentUrl
  let pathname := v.originBaseUrl.pathname.toList
  let basePath := if ['/'] <:+ pathname then pathname else pathname ++ ['/']
  if segment.origin ≠ v.originBaseUrl.origin ∨ ¬basePath <+: segment.pathname.toList then none
  else
    match v.hashUrlResolver with
    | some resolve => v.parse (resolve segmentUrl)
    | none => some { segment with pathname := segment.pathname ++ ".sha256" }

/-- `verifyUrl`, when the request for the hash has ended: with the text of the sidecar, or with
an error, an HTTP status or an abort. -/
def verifyUrl (v : OriginHashVerifier) (segmentUrl : String) (data : List UInt8)
    (sidecar : Option (List Char)) : HashCheck :=
  match v.hashUrl? segmentUrl, sidecar.bind parseSha256 with
  | some _, some expectedHash =>
      if verifySegmentHash v.sha256 data expectedHash then .matching else .different
  | _, _ => .unavailable

end OriginHashVerifier

/-- What the origin has answered to requests for hashes. -/
abbrev PublishedHashes := List (AbsoluteUrl × List Char)

/-- The bytes have the hash that was published for the URL. -/
def HasPublishedHash (v : OriginHashVerifier) (published : PublishedHashes)
    (segmentUrl : String) (data : List UInt8) : Prop :=
  ∃ hashUrl content expectedHash, v.hashUrl? segmentUrl = some hashUrl ∧
    (hashUrl, content) ∈ published ∧ parseSha256 content = some expectedHash ∧
      v.sha256 data = hexBytes expectedHash

/-- The origin's answer to a request for the hash of a URL. -/
def publish (v : OriginHashVerifier) (published : PublishedHashes) (segmentUrl : String)
    (sidecar : Option (List Char)) : PublishedHashes :=
  match v.hashUrl? segmentUrl, sidecar with
  | some hashUrl, some content => published ++ [(hashUrl, content)]
  | _, _ => published

section Verifier

variable {v : OriginHashVerifier} {published : PublishedHashes} {segmentUrl : String}
  {data : List UInt8} {sidecar : Option (List Char)}

theorem HasPublishedHash.mono {published' : PublishedHashes}
    (h : HasPublishedHash v published segmentUrl data) (hsub : published ⊆ published') :
    HasPublishedHash v published' segmentUrl data := by
  obtain ⟨hashUrl, content, expectedHash, hurl, hmem, hhash⟩ := h
  exact ⟨hashUrl, content, expectedHash, hurl, hsub hmem, hhash⟩

theorem subset_publish : published ⊆ publish v published segmentUrl sidecar := by
  unfold publish
  split
  · exact List.subset_append_left _ _
  · exact List.Subset.refl _

/-- Bytes that pass have the hash that was just answered. -/
theorem hasPublishedHash_of_matching (h : v.verifyUrl segmentUrl data sidecar = .matching) :
    HasPublishedHash v (publish v published segmentUrl sidecar) segmentUrl data := by
  unfold OriginHashVerifier.verifyUrl at h
  split at h
  · rename_i hashUrl expectedHash hurl hparse
    obtain ⟨content, rfl, hcontent⟩ := Option.bind_eq_some_iff.mp hparse
    split_ifs at h with hequal
    have hmem : (hashUrl, content) ∈ publish v published segmentUrl (some content) := by
      unfold publish
      rw [hurl]
      exact List.mem_append_right _ (List.mem_singleton_self _)
    exact ⟨hashUrl, content, expectedHash, hurl, hmem, hcontent,
      sha256_of_verifySegmentHash hequal⟩
  · exact absurd h (by simp)

end Verifier

/-! ## One load -/

namespace CountedLoad

/-- The race of an aborted load's probes is over: a hedge is rejected, and any other load goes on
to an origin request that is aborted at once. -/
def endRace (load : CountedLoad) : CountedLoad :=
  if load.hedged then load.reject else load.startOrigin

def setAbortedProbe (load : CountedLoad) (i : ℕ) (probe : PeerProbe) : CountedLoad :=
  let load := { load with probes := load.probes.set i probe }
  match probe with
  | .delivered _ => load.endRace
  | _ => if ∀ probe ∈ load.probes, probe = .failed then load.endRace else load

/-- A step of a load whose signal is aborted. Nothing arrives any more; a check of bytes that are
there goes on. -/
def stepAborted (load : CountedLoad) : Event → Option CountedLoad
  | .peerAnswers _ _ | .hedgeDelayEnds | .originAnswers _ => none
  | .peerFails i =>
      match load.probe? i with
      | some .requesting => some (load.setAbortedProbe i .failed)
      | _ => none
  | .peerChecked i check =>
      match load.probe? i with
      | some (.verifying data) =>
          some (match check with
            | .matching => load.setAbortedProbe i (.delivered data)
            | .different => (load.count .integrityFailures 1).setAbortedProbe i .failed
            | .unavailable => load.setAbortedProbe i .failed)
      | _ => none
  | .budgetEnds => load.step .budgetEnds
  | .originFails =>
      if (load.origin = .requesting ∨ load.origin = .waitingForHedge) ∧ load.outcome = none then
        some { load with origin := .failed }.reject
      else none
  | .originChecked check =>
      match load.origin with
      | .verifying data =>
          if load.outcome = none then
            some (match check with
              | .matching => if load.hedged then load.reject else load.originSettles data false
              | .different => (load.count .integrityFailures 1).reject
              | .unavailable => load.reject)
          else none
      | _ => none

/-- The event is the check that found the bytes of the result to be the published ones. Only the
origin's bytes can do without, and say so. -/
def CheckedBy (load : CountedLoad) (event : Event) : LoadResult → Prop
  | .p2p data => ∃ i, event = .peerChecked i .matching ∧ load.probe? i = some (.verifying data)
  | .origin data unverified => unverified = true ∨
      event = .originChecked .matching ∧ load.origin = .verifying data

/-- The load has a verifier, and if it has ended with bytes, these satisfy a condition. -/
structure Gives (load : CountedLoad) (P : LoadResult → Prop) : Prop where
  verifier : load.verifier = true
  outcome : ∀ result, load.outcome = some (some result) → P result

section Gives

variable {load load' : CountedLoad} {P : LoadResult → Prop}

theorem Gives.of_none (hverifier : load.verifier = true) (hnone : load.outcome = none) :
    load.Gives P where
  verifier := hverifier
  outcome result h := by
    rw [hnone] at h
    exact absurd h (by simp)

theorem Gives.count (h : load.Gives P) (key : PeerTrafficStatKey) (n : ℕ) :
    (load.count key n).Gives P := ⟨h.verifier, h.outcome⟩

theorem Gives.startOrigin (h : load.Gives P) : load.startOrigin.Gives P := ⟨h.verifier, h.outcome⟩

theorem Gives.reject (h : load.Gives P) : load.reject.Gives P where
  verifier := h.verifier
  outcome result houtcome := by
    exact absurd (Option.some.inj houtcome) (by simp)

theorem Gives.completeSegmentLoad (h : load.Gives P) {result : LoadResult} (hP : P result) :
    (load.completeSegmentLoad result).Gives P := by
  have hends : ({ load with outcome := some (some result) } : CountedLoad).Gives P := by
    refine ⟨h.verifier, fun result' houtcome => ?_⟩
    rwa [← Option.some.inj (Option.some.inj houtcome)]
  cases result with
  | p2p data => exact (hends.count _ _).count _ _
  | origin data unverified => exact hends.count _ _

theorem Gives.peersSettle (h : load.Gives P) {result : Option (List UInt8)}
    (hP : ∀ data, result = some data → P (.p2p data)) : (load.peersSettle result).Gives P := by
  unfold CountedLoad.peersSettle
  split_ifs with hhedged hexpired
  · cases result with
    | some data => exact h.completeSegmentLoad (hP data rfl)
    | none =>
        have hfailed : ({ (load.count .p2pFailures 1).count .fallbacks 1 with
            peerFailed := true } : CountedLoad).Gives P := ⟨h.verifier, h.outcome⟩
        dsimp only
        split_ifs
        · exact hfailed.reject
        · exact hfailed
  · exact ((h.count _ _).count _ _).startOrigin
  · cases result with
    | some data => exact h.completeSegmentLoad (hP data rfl)
    | none => exact h.startOrigin

/-- Only a probe that delivers gives the load its bytes. -/
theorem Gives.setProbe (h : load.Gives P) (i : ℕ) {probe : PeerProbe}
    (hP : ∀ data, probe = .delivered data → P (.p2p data)) : (load.setProbe i probe).Gives P := by
  have hset : ({ load with probes := load.probes.set i probe } : CountedLoad).Gives P :=
    ⟨h.verifier, h.outcome⟩
  unfold CountedLoad.setProbe
  dsimp only
  split
  · rename_i data
    apply hset.peersSettle
    intro data' hdata
    rw [← Option.some.inj hdata]
    exact hP data rfl
  · split_ifs
    · exact hset.peersSettle fun data hdata => absurd hdata (by simp)
    · exact hset

theorem Gives.setAbortedProbe (h : load.Gives P) (i : ℕ) (probe : PeerProbe) :
    (load.setAbortedProbe i probe).Gives P := by
  have hset : ({ load with probes := load.probes.set i probe } : CountedLoad).Gives P :=
    ⟨h.verifier, h.outcome⟩
  have hend : ∀ {load : CountedLoad}, load.Gives P → load.endRace.Gives P := by
    intro load h
    unfold endRace
    split_ifs
    · exact h.reject
    · exact h.startOrigin
  unfold CountedLoad.setAbortedProbe
  dsimp only
  split
  · exact hend hset
  · split_ifs
    · exact hend hset
    · exact hset

theorem Gives.originSettles (h : load.Gives P) {data : List UInt8} {unverified : Bool}
    (hP : P (.origin data unverified)) : (load.originSettles data unverified).Gives P := by
  unfold CountedLoad.originSettles
  dsimp only
  split_ifs
  · exact (h.count _ _).completeSegmentLoad hP
  · exact h.completeSegmentLoad hP

theorem Gives.originThrows (h : load.Gives P) : load.originThrows.Gives P := by
  have hfailed : ({ load with origin := .failed } : CountedLoad).Gives P :=
    ⟨h.verifier, h.outcome⟩
  unfold CountedLoad.originThrows
  dsimp only
  split_ifs
  · exact hfailed
  · exact hfailed.reject

/-- A load that ends with bytes ends by their check. -/
theorem gives_step {event : Event} (hverifier : load.verifier = true)
    (hnone : load.outcome = none) (hstep : load.step event = some load') :
    load'.Gives (load.CheckedBy event) := by
  have h : load.Gives (load.CheckedBy event) := .of_none hverifier hnone
  cases event with
  | peerAnswers i data =>
      simp only [CountedLoad.step] at hstep
      split at hstep
      · rw [if_pos hverifier] at hstep
        obtain rfl := Option.some.inj hstep
        exact h.setProbe i fun data' hdata => absurd hdata (by simp)
      · exact absurd hstep (by simp)
  | peerFails i =>
      simp only [CountedLoad.step] at hstep
      split at hstep
      · obtain rfl := Option.some.inj hstep
        exact h.setProbe i fun data hdata => absurd hdata (by simp)
      · exact absurd hstep (by simp)
  | peerChecked i check =>
      simp only [CountedLoad.step] at hstep
      split at hstep
      · rename_i data hprobe
        obtain rfl := Option.some.inj hstep
        cases check with
        | matching =>
            apply h.setProbe i
            intro data' hdata
            rw [← PeerProbe.delivered.inj hdata]
            exact ⟨i, rfl, hprobe⟩
        | different => exact (h.count _ _).setProbe i fun data hdata => absurd hdata (by simp)
        | unavailable => exact h.setProbe i fun data hdata => absurd hdata (by simp)
      · exact absurd hstep (by simp)
  | budgetEnds =>
      simp only [CountedLoad.step] at hstep
      split_ifs at hstep
      obtain rfl := Option.some.inj hstep
      exact ⟨h.verifier, h.outcome⟩
  | hedgeDelayEnds =>
      simp only [CountedLoad.step] at hstep
      split_ifs at hstep
      obtain rfl := Option.some.inj hstep
      exact h.startOrigin
  | originAnswers data =>
      simp only [CountedLoad.step] at hstep
      rw [if_pos hverifier] at hstep
      split_ifs at hstep
      obtain rfl := Option.some.inj hstep
      exact ⟨h.verifier, h.outcome⟩
  | originFails =>
      simp only [CountedLoad.step] at hstep
      split_ifs at hstep
      obtain rfl := Option.some.inj hstep
      exact h.originThrows
  | originChecked check =>
      simp only [CountedLoad.step] at hstep
      split at hstep
      · rename_i data horigin
        split_ifs at hstep
        obtain rfl := Option.some.inj hstep
        cases check with
        | matching => exact h.originSettles (Or.inr ⟨rfl, horigin⟩)
        | different => exact (h.count _ _).originThrows
        | unavailable => exact h.originSettles (Or.inl rfl)
      · exact absurd hstep (by simp)

theorem gives_stepAborted {event : Event} (hverifier : load.verifier = true)
    (hnone : load.outcome = none) (hstep : load.stepAborted event = some load') :
    load'.Gives (load.CheckedBy event) := by
  have h : load.Gives (load.CheckedBy event) := .of_none hverifier hnone
  cases event with
  | peerAnswers i data => exact absurd hstep (by simp [stepAborted])
  | peerFails i =>
      simp only [stepAborted] at hstep
      split at hstep
      · obtain rfl := Option.some.inj hstep
        exact h.setAbortedProbe i _
      · exact absurd hstep (by simp)
  | peerChecked i check =>
      simp only [stepAborted] at hstep
      split at hstep
      · obtain rfl := Option.some.inj hstep
        cases check with
        | matching => exact h.setAbortedProbe i _
        | different => exact (h.count _ _).setAbortedProbe i _
        | unavailable => exact h.setAbortedProbe i _
      · exact absurd hstep (by simp)
  | budgetEnds => exact gives_step hverifier hnone hstep
  | hedgeDelayEnds => exact absurd hstep (by simp [stepAborted])
  | originAnswers data => exact absurd hstep (by simp [stepAborted])
  | originFails =>
      simp only [stepAborted] at hstep
      split_ifs at hstep
      obtain rfl := Option.some.inj hstep
      exact Gives.reject ⟨h.verifier, h.outcome⟩
  | originChecked check =>
      simp only [stepAborted] at hstep
      split at hstep
      · rename_i data horigin
        split_ifs at hstep
        · obtain rfl := Option.some.inj hstep
          cases check with
          | matching => exact h.reject
          | different => exact (h.count _ _).reject
          | unavailable => exact h.reject
        · obtain rfl := Option.some.inj hstep
          cases check with
          | matching => exact h.originSettles (Or.inr ⟨rfl, horigin⟩)
          | different => exact (h.count _ _).reject
          | unavailable => exact h.reject
      · exact absurd hstep (by simp)

end Gives

end CountedLoad

/-! ## The plugin -/

/-- A load in flight or over, with the callers that wait for it. -/
structure SegmentTask where
  segmentUrl : String
  load : CountedLoad
  consumers : ℕ
  /-- `controller.signal.aborted` -/
  aborted : Bool

inductive TaskEvent where
  | peerAnswers (probe : ℕ) (data : List UInt8)
  | peerFails (probe : ℕ)
  /-- The request for the hash of a peer's bytes has ended. -/
  | peerSidecar (probe : ℕ) (sidecar : Option (List Char))
  | budgetEnds
  | hedgeDelayEnds
  | originAnswers (data : List UInt8)
  | originFails
  | originSidecar (sidecar : Option (List Char))

namespace SegmentTask

/-- What the event is for the load: a sidecar is compared with the bytes that wait for it. -/
def event? (v : OriginHashVerifier) (task : SegmentTask) : TaskEvent → Option CountedLoad.Event
  | .peerAnswers i data => some (.peerAnswers i data)
  | .peerFails i => some (.peerFails i)
  | .peerSidecar i sidecar =>
      match task.load.probe? i with
      | some (.verifying data) => some (.peerChecked i (v.verifyUrl task.segmentUrl data sidecar))
      | _ => none
  | .budgetEnds => some .budgetEnds
  | .hedgeDelayEnds => some .hedgeDelayEnds
  | .originAnswers data => some (.originAnswers data)
  | .originFails => some .originFails
  | .originSidecar sidecar =>
      match task.load.origin with
      | .verifying data => some (.originChecked (v.verifyUrl task.segmentUrl data sidecar))
      | _ => none

def published (v : OriginHashVerifier) (task : SegmentTask) (published : PublishedHashes) :
    TaskEvent → PublishedHashes
  | .peerSidecar _ sidecar | .originSidecar sidecar => publish v published task.segmentUrl sidecar
  | _ => published

def loadStep (task : SegmentTask) (event : CountedLoad.Event) : Option CountedLoad :=
  if task.aborted then task.load.stepAborted event else task.load.step event

def step (v : OriginHashVerifier) (task : SegmentTask) (event : TaskEvent) : Option SegmentTask := do
  let load ← (task.event? v event).bind task.loadStep
  return { task with load := load }

end SegmentTask

structure SegmentPlugin where
  active : Bool
  sharing : SegmentSharing
  /-- All loads so far. -/
  tasks : List SegmentTask
  inFlightSegments : OrderedMap String ℕ
  partAssemblies : PartAssemblies
  /-- Joined segments that wait for their hash, with their URLs. -/
  assembled : List (String × List UInt8)
  published : PublishedHashes

inductive PluginEvent where
  | startGrid
  | stopGrid
  /-- A loader asks for a segment; the scheduler has planned these peers for it. -/
  | loadSegment (segmentUrl : String) (plugin : HlsPlugin) (candidates : List PeerCandidate)
      (execution : Option SegmentExecutionHints)
  /-- The signal of a caller is aborted. -/
  | consumerLeaves (task : ℕ)
  | task (i : ℕ) (event : TaskEvent)
  | recordPart (levels : ℤ → Option PlaylistDetails) (level sn index : ℤ) (data : List UInt8)
  | assemblySidecar (i : ℕ) (sidecar : Option (List Char))
  | report
  | serve (segmentId : SegmentId)

namespace SegmentPlugin

def new (maxBytes : ℕ) : SegmentPlugin := ⟨false, .new maxBytes, [], ∅, ∅, [], []⟩

variable (page : UrlParser) (v : OriginHashVerifier)

/-- The segment is cached under the key and the ID of its URL. -/
def cacheSegment (s : SegmentPlugin) (segmentUrl : String) (data : List UInt8) : SegmentPlugin :=
  { s with sharing := s.sharing.afterCaching page segmentUrl data }

def loadSegment (s : SegmentPlugin) (segmentUrl : String) (load : CountedLoad) : SegmentPlugin :=
  let cacheKey := cacheKeyFrom page segmentUrl
  let (cache, cached) := s.sharing.cache.get cacheKey
  let s := { s with sharing := { s.sharing with cache } }
  if cached.isSome then s
  else
    match s.inFlightSegments.get? cacheKey with
    | some i =>
        { s with tasks := s.tasks.modify i fun task =>
            { task with consumers := task.consumers + 1 } }
    | none =>
        { s with
          tasks := s.tasks ++ [⟨segmentUrl, load, 1, false⟩]
          inFlightSegments := s.inFlightSegments.set cacheKey s.tasks.length }

/-- A caller leaves; the last one aborts the load. -/
def leave (task : SegmentTask) : SegmentTask :=
  { task with consumers := task.consumers - 1, aborted := task.aborted || task.consumers = 1 }

def abort (task : SegmentTask) : SegmentTask := { task with aborted := true }

/-- A load is in flight no more. -/
def land (s : SegmentPlugin) (i : ℕ) (cacheKey : String) : SegmentPlugin :=
  { s with inFlightSegments :=
      if s.inFlightSegments.get? cacheKey = some i then s.inFlightSegments.delete cacheKey
      else s.inFlightSegments }

/-- Where a load has ended, what was verified is cached. -/
def settle (s : SegmentPlugin) (i : ℕ) (segmentUrl : String) :
    Option (Option LoadResult) → SegmentPlugin
  | none => s
  | some (some (.p2p data)) | some (some (.origin data false)) =>
      (s.land i (cacheKeyFrom page segmentUrl)).cacheSegment page segmentUrl data
  | some _ => s.land i (cacheKeyFrom page segmentUrl)

def taskStep (s : SegmentPlugin) (i : ℕ) (event : TaskEvent) : Option SegmentPlugin := do
  let task ← s.tasks[i]?
  if task.load.outcome.isSome then none
  else
    let task' ← task.step v event
    return { s with
      tasks := s.tasks.set i task'
      published := task.published v s.published event }.settle page i task.segmentUrl
        task'.load.outcome

/-- The hash of a joined segment is there, or cannot be had. -/
def verifyAssembled (s : SegmentPlugin) (i : ℕ) (sidecar : Option (List Char)) :
    Option SegmentPlugin := do
  let (segmentUrl, data) ← s.assembled[i]?
  let s := { s with
    assembled := s.assembled.eraseIdx i
    published := publish v s.published segmentUrl sidecar }
  if v.verifyUrl segmentUrl data sidecar = .matching ∧ s.active = true then
    some (s.cacheSegment page segmentUrl data)
  else some s

def step (s : SegmentPlugin) : PluginEvent → Option SegmentPlugin
  | .startGrid => some { s with active := true }
  | .stopGrid =>
      some { s with
        active := false
        tasks := s.inFlightSegments.values.foldl (fun tasks i => tasks.modify i abort) s.tasks }
  | .loadSegment segmentUrl plugin candidates execution =>
      some (s.loadSegment page segmentUrl
        (.loadUncachedSegment { plugin with verifier := true } candidates execution))
  | .consumerLeaves i => do
      let task ← s.tasks[i]?
      if task.consumers = 0 ∨ task.load.outcome.isSome then none
      else some { s with tasks := s.tasks.set i (leave task) }
  | .task i event => s.taskStep page v i event
  | .recordPart levels level sn index data =>
      let (partAssemblies, assembled) :=
        s.partAssemblies.recordPart page levels level sn index data
      some { s with partAssemblies, assembled := s.assembled ++ assembled }
  | .assemblySidecar i sidecar => s.verifyAssembled page v i sidecar
  | .report => some { s with sharing := s.sharing.cachedSegmentIds.1 }
  | .serve segmentId => some { s with sharing := (s.sharing.segmentProvider segmentId).1 }

/-- The runs of a plugin with a verifier, under every behaviour of peers, origin and player. -/
def system (maxBytes : ℕ) : TransitionSystem SegmentPlugin PluginEvent where
  init s := s = .new maxBytes
  step := step page v

/-! ### What is cached -/

/-- The bytes were compared with the published hash of a URL that has the key. -/
def Verified (published : PublishedHashes) (cacheKey : String) (data : List UInt8) : Prop :=
  ∃ segmentUrl, cacheKeyFrom page segmentUrl = cacheKey ∧
    HasPublishedHash v published segmentUrl data

/-- Loads verify what they get, and only what was verified is cached. -/
structure OnlyVerified (s : SegmentPlugin) : Prop where
  tasks : ∀ task ∈ s.tasks, task.load.verifier = true
  cached : ∀ cacheKey data, s.sharing.cache.nodes.get? cacheKey = some data →
    Verified page v s.published cacheKey data

variable {page v} {s s' : SegmentPlugin}

theorem Verified.mono {published published' : PublishedHashes} {cacheKey : String}
    {data : List UInt8} (h : Verified page v published cacheKey data)
    (hsub : published ⊆ published') : Verified page v published' cacheKey data := by
  obtain ⟨segmentUrl, hkey, hhash⟩ := h
  exact ⟨segmentUrl, hkey, hhash.mono hsub⟩

/-- Steps that leave what is cached alone. -/
theorem OnlyVerified.of_cached (h : OnlyVerified page v s)
    (htasks : ∀ task ∈ s'.tasks, task.load.verifier = true)
    (hcached : ∀ cacheKey data, s'.sharing.cache.nodes.get? cacheKey = some data →
      s.sharing.cache.nodes.get? cacheKey = some data)
    (hpublished : s.published ⊆ s'.published) : OnlyVerified page v s' where
  tasks := htasks
  cached cacheKey data hget := (h.cached cacheKey data (hcached cacheKey data hget)).mono hpublished

theorem OnlyVerified.cacheSegment (h : OnlyVerified page v s) {segmentUrl : String}
    {data : List UInt8} (hhash : HasPublishedHash v s.published segmentUrl data) :
    OnlyVerified page v (s.cacheSegment page segmentUrl data) where
  tasks := h.tasks
  cached cacheKey stored hget := by
    change (s.sharing.afterCaching page segmentUrl data).cache.nodes.get? cacheKey = _ at hget
    rcases s.sharing.afterCaching_cases segmentUrl data with hsame | hset
    · rw [hsame] at hget
      exact h.cached cacheKey stored hget
    · rw [hset] at hget
      rcases SegmentCache.get?_set hget with ⟨rfl, rfl⟩ | hold
      · exact ⟨segmentUrl, rfl, hhash⟩
      · exact h.cached cacheKey stored hold

/-- A load ends with bytes that were verified, or is not cached. -/
theorem OnlyVerified.settle (h : OnlyVerified page v s) (i : ℕ) {segmentUrl : String}
    {outcome : Option (Option LoadResult)}
    (hp2p : ∀ data, outcome = some (some (.p2p data)) →
      HasPublishedHash v s.published segmentUrl data)
    (horigin : ∀ data, outcome = some (some (.origin data false)) →
      HasPublishedHash v s.published segmentUrl data) :
    OnlyVerified page v (s.settle page i segmentUrl outcome) := by
  have hland : OnlyVerified page v (s.land i (cacheKeyFrom page segmentUrl)) := ⟨h.tasks, h.cached⟩
  unfold SegmentPlugin.settle
  split
  · exact h
  · exact hland.cacheSegment (hp2p _ rfl)
  · exact hland.cacheSegment (horigin _ rfl)
  · exact hland

theorem mem_modify_of_forall {tasks : List SegmentTask} {P : SegmentTask → Prop}
    (h : ∀ task ∈ tasks, P task) (i : ℕ) {f : SegmentTask → SegmentTask}
    (hf : ∀ task, P task → P (f task)) : ∀ task ∈ tasks.modify i f, P task := by
  intro task hmem
  obtain ⟨j, hj, rfl⟩ := List.getElem_of_mem hmem
  rw [List.getElem_modify]
  have hbound : j < tasks.length := by simpa using hj
  split_ifs
  · exact hf _ (h _ (List.getElem_mem hbound))
  · exact h _ (List.getElem_mem hbound)

/-- What a task's event leaves of its load. -/
theorem gives_of_loadStep {task : SegmentTask} {event : CountedLoad.Event} {load' : CountedLoad}
    (hverifier : task.load.verifier = true) (hnone : task.load.outcome = none)
    (hstep : task.loadStep event = some load') : load'.Gives (task.load.CheckedBy event) := by
  unfold SegmentTask.loadStep at hstep
  split_ifs at hstep
  · exact CountedLoad.gives_stepAborted hverifier hnone hstep
  · exact CountedLoad.gives_step hverifier hnone hstep

/-- A check that finds a peer's bytes to be the published ones has compared them. -/
theorem hasPublishedHash_of_peerChecked {task : SegmentTask} {event : TaskEvent} {i : ℕ}
    {data : List UInt8} {published : PublishedHashes}
    (hevent : task.event? v event = some (.peerChecked i .matching))
    (hprobe : task.load.probe? i = some (.verifying data)) :
    HasPublishedHash v (task.published v published event) task.segmentUrl data := by
  cases event with
  | peerSidecar j sidecar =>
      simp only [SegmentTask.event?] at hevent
      split at hevent
      · rename_i stored hstored
        obtain ⟨rfl, hcheck⟩ := CountedLoad.Event.peerChecked.inj (Option.some.inj hevent)
        rw [hprobe] at hstored
        obtain rfl := PeerProbe.verifying.inj (Option.some.inj hstored)
        exact hasPublishedHash_of_matching hcheck
      · exact absurd hevent (by simp)
  | originSidecar sidecar =>
      simp only [SegmentTask.event?] at hevent
      split at hevent
      · exact absurd hevent (by simp)
      · exact absurd hevent (by simp)
  | _ => exact absurd hevent (by simp [SegmentTask.event?])

theorem hasPublishedHash_of_originChecked {task : SegmentTask} {event : TaskEvent}
    {data : List UInt8} {published : PublishedHashes}
    (hevent : task.event? v event = some (.originChecked .matching))
    (horigin : task.load.origin = .verifying data) :
    HasPublishedHash v (task.published v published event) task.segmentUrl data := by
  cases event with
  | originSidecar sidecar =>
      simp only [SegmentTask.event?, horigin] at hevent
      exact hasPublishedHash_of_matching
        (CountedLoad.Event.originChecked.inj (Option.some.inj hevent))
  | peerSidecar j sidecar =>
      simp only [SegmentTask.event?] at hevent
      split at hevent
      · exact absurd hevent (by simp)
      · exact absurd hevent (by simp)
  | _ => exact absurd hevent (by simp [SegmentTask.event?])

theorem subset_published {task : SegmentTask} {published : PublishedHashes} {event : TaskEvent} :
    published ⊆ task.published v published event := by
  cases event with
  | peerSidecar i sidecar => exact subset_publish
  | originSidecar sidecar => exact subset_publish
  | _ => exact List.Subset.refl _

theorem OnlyVerified.taskStep (h : OnlyVerified page v s) {i : ℕ} {event : TaskEvent}
    (hstep : s.taskStep page v i event = some s') : OnlyVerified page v s' := by
  unfold SegmentPlugin.taskStep at hstep
  obtain ⟨task, htask, hrest⟩ := Option.bind_eq_some_iff.mp hstep
  split_ifs at hrest with hended
  have hnone : task.load.outcome = none := by simpa using hended
  have hverifier := h.tasks task (List.mem_of_getElem? htask)
  obtain ⟨task', htask', hresult⟩ := Option.bind_eq_some_iff.mp hrest
  obtain ⟨load', hload, hwith⟩ := Option.bind_eq_some_iff.mp htask'
  obtain ⟨checked, hchecked, hloadStep⟩ := Option.bind_eq_some_iff.mp hload
  obtain rfl := Option.some.inj hwith
  obtain rfl := Option.some.inj hresult
  have hgives := gives_of_loadStep hverifier hnone hloadStep
  have hbefore : OnlyVerified page v { s with
      tasks := s.tasks.set i { task with load := load' }
      published := task.published v s.published event } := by
    refine h.of_cached ?_ (fun _ _ hget => hget) subset_published
    intro other hmem
    rcases List.mem_or_eq_of_mem_set hmem with hold | rfl
    · exact h.tasks other hold
    · exact hgives.verifier
  apply hbefore.settle
  · intro data houtcome
    obtain ⟨j, rfl, hprobe⟩ := hgives.outcome _ houtcome
    exact hasPublishedHash_of_peerChecked hchecked hprobe
  · intro data houtcome
    rcases hgives.outcome _ houtcome with hunverified | ⟨rfl, horigin⟩
    · exact absurd hunverified (by decide)
    · exact hasPublishedHash_of_originChecked hchecked horigin

theorem OnlyVerified.verifyAssembled (h : OnlyVerified page v s) {i : ℕ}
    {sidecar : Option (List Char)} (hstep : s.verifyAssembled page v i sidecar = some s') :
    OnlyVerified page v s' := by
  unfold SegmentPlugin.verifyAssembled at hstep
  obtain ⟨⟨segmentUrl, data⟩, hget, hrest⟩ := Option.bind_eq_some_iff.mp hstep
  have hpublished : OnlyVerified page v { s with
      assembled := s.assembled.eraseIdx i
      published := publish v s.published segmentUrl sidecar } :=
    h.of_cached h.tasks (fun _ _ hget => hget) subset_publish
  dsimp only at hrest
  split_ifs at hrest with hvalid
  · obtain rfl := Option.some.inj hrest
    exact hpublished.cacheSegment (hasPublishedHash_of_matching hvalid.1)
  · obtain rfl := Option.some.inj hrest
    exact hpublished

theorem OnlyVerified.loadSegment (h : OnlyVerified page v s) (segmentUrl : String)
    {load : CountedLoad} (hverifier : load.verifier = true) :
    OnlyVerified page v (s.loadSegment page segmentUrl load) := by
  have hlookUp : OnlyVerified page v { s with sharing := { s.sharing with
      cache := (s.sharing.cache.get (cacheKeyFrom page segmentUrl)).1 } } := by
    refine h.of_cached h.tasks (fun cacheKey data hget => ?_) (List.Subset.refl _)
    rwa [← SegmentCache.get?_get s.sharing.cache (cacheKeyFrom page segmentUrl) cacheKey]
  unfold SegmentPlugin.loadSegment
  dsimp only
  split_ifs
  · exact hlookUp
  · split
    · refine ⟨?_, hlookUp.cached⟩
      exact mem_modify_of_forall h.tasks _ fun task htask => htask
    · refine ⟨fun task hmem => ?_, hlookUp.cached⟩
      rcases List.mem_append.mp hmem with hold | hnew
      · exact h.tasks task hold
      · rw [List.mem_singleton.mp hnew]
        exact hverifier

theorem loadUncachedSegment_verifier (plugin : HlsPlugin) (candidates : List PeerCandidate)
    (execution : Option SegmentExecutionHints) :
    (CountedLoad.loadUncachedSegment plugin candidates execution).verifier = plugin.verifier := by
  unfold CountedLoad.loadUncachedSegment
  dsimp only
  split_ifs <;> rfl

theorem OnlyVerified.stopGrid (h : OnlyVerified page v s) (loads : List ℕ) :
    ∀ task ∈ loads.foldl (fun tasks i => tasks.modify i abort) s.tasks,
      task.load.verifier = true := by
  have gen : ∀ tasks : List SegmentTask, (∀ task ∈ tasks, task.load.verifier = true) →
      ∀ task ∈ loads.foldl (fun tasks i => tasks.modify i abort) tasks,
        task.load.verifier = true := by
    induction loads with
    | nil => exact fun _ htasks => htasks
    | cons i loads ih =>
        exact fun tasks htasks => ih _ (mem_modify_of_forall htasks i fun task htask => htask)
  exact gen s.tasks h.tasks

theorem OnlyVerified.step (h : OnlyVerified page v s) {event : PluginEvent}
    (hstep : s.step page v event = some s') : OnlyVerified page v s' := by
  cases event with
  | startGrid =>
      obtain rfl := Option.some.inj hstep
      exact ⟨h.tasks, h.cached⟩
  | stopGrid =>
      obtain rfl := Option.some.inj hstep
      exact ⟨h.stopGrid _, h.cached⟩
  | loadSegment segmentUrl plugin candidates execution =>
      obtain rfl := Option.some.inj hstep
      exact h.loadSegment segmentUrl (loadUncachedSegment_verifier _ candidates execution)
  | consumerLeaves i =>
      obtain ⟨task, htask, hrest⟩ := Option.bind_eq_some_iff.mp hstep
      split_ifs at hrest
      obtain rfl := Option.some.inj hrest
      refine ⟨fun other hmem => ?_, h.cached⟩
      rcases List.mem_or_eq_of_mem_set hmem with hold | rfl
      · exact h.tasks other hold
      · exact h.tasks task (List.mem_of_getElem? htask)
  | task i event => exact h.taskStep hstep
  | recordPart levels level sn index data =>
      obtain rfl := Option.some.inj hstep
      exact ⟨h.tasks, h.cached⟩
  | assemblySidecar i sidecar => exact h.verifyAssembled hstep
  | report =>
      obtain rfl := Option.some.inj hstep
      exact ⟨h.tasks, h.cached⟩
  | serve segmentId =>
      obtain rfl := Option.some.inj hstep
      refine h.of_cached h.tasks (fun cacheKey data hget => ?_) (List.Subset.refl _)
      rwa [← (s.sharing.segmentProvider_fields segmentId).2.2 cacheKey]

/-- What the plugin caches, advertises and uploads. -/
structure ServesVerified (page : UrlParser) (v : OriginHashVerifier) (s : SegmentPlugin) :
    Prop where
  cached : ∀ cacheKey data, s.sharing.cache.nodes.get? cacheKey = some data →
    Verified page v s.published cacheKey data
  /-- An ID is advertised for a cached segment, -/
  advertised : ∀ segmentId ∈ s.sharing.cachedSegmentIds.2, ∃ cacheKey data,
    s.sharing.cacheKeysBySegmentId.get? segmentId = some cacheKey ∧
      s.sharing.cache.nodes.get? cacheKey = some data
  /-- and cached bytes are uploaded. -/
  uploaded : ∀ segmentId data, (s.sharing.segmentProvider segmentId).2 = some data →
    ∃ cacheKey, s.sharing.cache.nodes.get? cacheKey = some data

theorem cached_of_advertised {sharing : SegmentSharing} {segmentId : SegmentId}
    (h : segmentId ∈ sharing.cachedSegmentIds.2) : ∃ cacheKey data,
      sharing.cacheKeysBySegmentId.get? segmentId = some cacheKey ∧
        sharing.cache.nodes.get? cacheKey = some data := by
  have hmem : segmentId ∈ sharing.cachedSegmentIds.1.cacheKeysBySegmentId :=
    OrderedMap.mem_iff_mem_keys.mpr h
  obtain ⟨cacheKey, hkept⟩ := OrderedMap.get?_of_mem hmem
  change (List.foldl OrderedMap.delete _ _).get? segmentId = _ at hkept
  rw [OrderedMap.get?_foldl_delete] at hkept
  split_ifs at hkept with hdead
  have hhas : sharing.cache.has cacheKey = true := by
    by_contra hmissing
    apply hdead
    rw [List.mem_filter, hkept]
    exact ⟨OrderedMap.mem_iff_mem_keys.mp (OrderedMap.mem_of_get? hkept), by simpa using hmissing⟩
  obtain ⟨data, hdata⟩ := Option.isSome_iff_exists.mp hhas
  exact ⟨cacheKey, data, hkept, hdata⟩

theorem cached_of_provided {sharing : SegmentSharing} {segmentId : SegmentId} {data : List UInt8}
    (h : (sharing.segmentProvider segmentId).2 = some data) :
    ∃ cacheKey, sharing.cache.nodes.get? cacheKey = some data := by
  unfold SegmentSharing.segmentProvider at h
  split at h
  · exact absurd h (by simp)
  · rename_i cacheKey _
    split_ifs at h
    exact ⟨cacheKey, (SegmentCache.get_snd sharing.cache cacheKey).symm.trans h⟩

theorem onlyVerified_of_reachable {maxBytes : ℕ}
    (hr : (system page v maxBytes).Reachable (fun _ _ => True) s) : OnlyVerified page v s := by
  apply hr.invariant (OnlyVerified page v)
  · rintro s rfl
    exact ⟨fun task hmem => absurd hmem List.not_mem_nil, fun _ _ hget => absurd hget (by
      show (∅ : OrderedMap String (List UInt8)).get? _ ≠ _
      simp)⟩
  · exact fun s event s' h _ hstep => h.step hstep

theorem OnlyVerified.serves (h : OnlyVerified page v s) : ServesVerified page v s where
  cached := h.cached
  advertised _ hmem := cached_of_advertised hmem
  uploaded _ _ hdata := cached_of_provided hdata

end SegmentPlugin

end Sdk

end OpenStreamGrid
