import OpenStreamGrid.Common.SegmentHashes
import OpenStreamGrid.Peer.FetchStatistics

/-!
# What the Node fetcher caches

The fetches of a Node peer with the hashes they are checked with. The verifier keeps
the hashes of segment names and shares the requests for them, so a check may use a
hash that was answered to an earlier one; every buffer that is cached has one of the
hashes published for its name.
-/

namespace OpenStreamGrid

namespace Node

/-! ## The verifier -/

/-- A request for the hash of a segment; `none` within is a rejected one. -/
structure HashRequest where
  segmentName : String
  outcome : Option (Option (List Char))

/-- What a check waits for: a hash that is there already, or a request. -/
inductive ExpectedHash where
  | cached (hash : List Char)
  | pending (request : ℕ)

structure OriginHashVerifier where
  hashes : OrderedMap String (List Char)
  pendingHashes : OrderedMap String ℕ
  /-- Every request there was. -/
  requests : List HashRequest
  /-- What the origin has answered to them. -/
  published : List (String × List Char)

namespace OriginHashVerifier

def new : OriginHashVerifier := ⟨∅, ∅, [], []⟩

/-- A known hash becomes the most recently used one; a request under way is shared. -/
def expectedHash (v : OriginHashVerifier) (segmentName : String) :
    OriginHashVerifier × ExpectedHash :=
  match v.hashes.get? segmentName with
  | some cached =>
      ({ v with hashes := (v.hashes.delete segmentName).set segmentName cached }, .cached cached)
  | none =>
      match v.pendingHashes.get? segmentName with
      | some request => (v, .pending request)
      | none =>
          ({ v with
              pendingHashes := v.pendingHashes.set segmentName v.requests.length
              requests := v.requests ++ [⟨segmentName, none⟩] },
            .pending v.requests.length)

/-- Keeps the newest hashes of too many. -/
def trimmed (maxCachedHashes : ℕ) (hashes : OrderedMap String (List Char)) :
    OrderedMap String (List Char) :=
  (hashes.keys.take (hashes.size - maxCachedHashes)).foldl OrderedMap.delete hashes

/-- What an answer leaves: with the text of the sidecar, or with an error or an HTTP status. -/
def settle (v : OriginHashVerifier) (maxCachedHashes request : ℕ) (segmentName : String)
    (sidecar : Option (List Char)) : OriginHashVerifier where
  hashes := match sidecar.bind parseSha256 with
    | some hash => trimmed maxCachedHashes (v.hashes.set segmentName hash)
    | none => v.hashes
  pendingHashes :=
    if v.pendingHashes.get? segmentName = some request then v.pendingHashes.delete segmentName
    else v.pendingHashes
  requests := v.requests.set request ⟨segmentName, some (sidecar.bind parseSha256)⟩
  published := match sidecar with
    | some content => v.published ++ [(segmentName, content)]
    | none => v.published

/-- The answer to a request under way. -/
def answer (v : OriginHashVerifier) (maxCachedHashes request : ℕ)
    (sidecar : Option (List Char)) : Option OriginHashVerifier := do
  let pending ← v.requests[request]?
  if pending.outcome.isSome then none
  else some (v.settle maxCachedHashes request pending.segmentName sidecar)

/-- What a check was waiting for, once it is there. -/
def hash? (v : OriginHashVerifier) : ExpectedHash → Option (Option (List Char))
  | .cached hash => some (some hash)
  | .pending request => (v.requests[request]?).bind HashRequest.outcome

end OriginHashVerifier

/-- A hash that was published for the segment. -/
def PublishedHash (published : List (String × List Char)) (segmentName : String)
    (hash : List Char) : Prop :=
  ∃ content, (segmentName, content) ∈ published ∧ parseSha256 content = some hash

theorem PublishedHash.mono {published published' : List (String × List Char)}
    {segmentName : String} {hash : List Char} (h : PublishedHash published segmentName hash)
    (hsub : published ⊆ published') : PublishedHash published' segmentName hash := by
  obtain ⟨content, hmem, hparse⟩ := h
  exact ⟨content, hsub hmem, hparse⟩

namespace OriginHashVerifier

/-- The hash that is or will be there was published for the segment. -/
def Expects (v : OriginHashVerifier) (segmentName : String) : ExpectedHash → Prop
  | .cached hash => PublishedHash v.published segmentName hash
  | .pending request => ∃ r, v.requests[request]? = some r ∧ r.segmentName = segmentName

/-- The verifier keeps published hashes, under their segments' names. -/
structure Faithful (v : OriginHashVerifier) : Prop where
  hashes : ∀ segmentName hash, v.hashes.get? segmentName = some hash →
    PublishedHash v.published segmentName hash
  pendingHashes : ∀ segmentName request, v.pendingHashes.get? segmentName = some request →
    v.Expects segmentName (.pending request)
  requests : ∀ r ∈ v.requests, ∀ hash, r.outcome = some (some hash) →
    PublishedHash v.published r.segmentName hash

/-- What the checks rely on stays: requests keep their segment and published texts stay published. -/
structure Grows (v v' : OriginHashVerifier) : Prop where
  published : v.published ⊆ v'.published
  requests : ∀ (request : ℕ) (r : HashRequest), v.requests[request]? = some r →
    ∃ r', v'.requests[request]? = some r' ∧ r'.segmentName = r.segmentName

variable {v v' : OriginHashVerifier} {segmentName : String}

theorem Expects.mono {expected : ExpectedHash} (h : v.Expects segmentName expected)
    (hgrows : v.Grows v') : v'.Expects segmentName expected := by
  cases expected with
  | cached hash => exact PublishedHash.mono h hgrows.published
  | pending request =>
      obtain ⟨r, hget, hname⟩ := h
      obtain ⟨r', hget', hname'⟩ := hgrows.requests request r hget
      exact ⟨r', hget', hname'.trans hname⟩

theorem Faithful.new : Faithful new where
  hashes segmentName hash h := absurd h (by simp [OriginHashVerifier.new])
  pendingHashes segmentName request h := absurd h (by simp [OriginHashVerifier.new])
  requests r hr := absurd hr List.not_mem_nil

/-- A hash that is there when a check wants it was published for the segment. -/
theorem Faithful.publishedHash (h : v.Faithful) {expected : ExpectedHash} {hash : List Char}
    (hexpects : v.Expects segmentName expected) (hhash : v.hash? expected = some (some hash)) :
    PublishedHash v.published segmentName hash := by
  cases expected with
  | cached stored =>
      obtain rfl := Option.some.inj (Option.some.inj hhash)
      exact hexpects
  | pending request =>
      obtain ⟨r, hget, rfl⟩ := hexpects
      obtain ⟨r', hget', houtcome⟩ := Option.bind_eq_some_iff.mp hhash
      obtain rfl := Option.some.inj (hget.symm.trans hget')
      exact h.requests r (List.mem_of_getElem? hget) hash houtcome

theorem grows_expectedHash (v : OriginHashVerifier) (segmentName : String) :
    v.Grows (v.expectedHash segmentName).1 := by
  unfold expectedHash
  split
  · exact ⟨List.Subset.refl _, fun _ r hget => ⟨r, hget, rfl⟩⟩
  · split
    · exact ⟨List.Subset.refl _, fun _ r hget => ⟨r, hget, rfl⟩⟩
    · refine ⟨List.Subset.refl _, fun request r hget => ⟨r, ?_, rfl⟩⟩
      have hbound : request < v.requests.length := (List.getElem?_eq_some_iff.mp hget).1
      show (v.requests ++ _)[request]? = some r
      rw [List.getElem?_append_left hbound, hget]

/-- A check begins with what the verifier has for its segment. -/
theorem Faithful.expectedHash (h : v.Faithful) (segmentName : String) :
    (v.expectedHash segmentName).1.Faithful ∧
      (v.expectedHash segmentName).1.Expects segmentName (v.expectedHash segmentName).2 := by
  unfold OriginHashVerifier.expectedHash
  cases hknown : v.hashes.get? segmentName with
  | some cached =>
      refine ⟨⟨fun other hash hget => ?_, h.pendingHashes, h.requests⟩, ?_⟩
      · change ((v.hashes.delete segmentName).set segmentName cached).get? other = _ at hget
        rw [OrderedMap.get?_set, OrderedMap.get?_delete] at hget
        split_ifs at hget with hother
        · obtain rfl := Option.some.inj hget
          rw [hother]
          exact h.hashes segmentName cached hknown
        · exact h.hashes other hash hget
      · exact h.hashes segmentName cached hknown
  | none =>
      dsimp only
      cases hpending : v.pendingHashes.get? segmentName with
      | some request => exact ⟨h, h.pendingHashes segmentName request hpending⟩
      | none =>
          have hgrows := grows_expectedHash v segmentName
          simp only [OriginHashVerifier.expectedHash, hknown, hpending] at hgrows
          have hnew : (v.requests ++ [⟨segmentName, none⟩])[v.requests.length]?
              = some ⟨segmentName, none⟩ := by simp
          refine ⟨⟨h.hashes, fun other request hget => ?_, fun r hr hash houtcome => ?_⟩,
            _, hnew, rfl⟩
          · change (v.pendingHashes.set segmentName v.requests.length).get? other = _ at hget
            rw [OrderedMap.get?_set] at hget
            split_ifs at hget with hother
            · obtain rfl := Option.some.inj hget
              exact ⟨_, hnew, hother.symm⟩
            · exact (h.pendingHashes other request hget).mono hgrows
          · rcases List.mem_append.mp hr with hold | hfresh
            · exact h.requests r hold hash houtcome
            · rw [List.mem_singleton.mp hfresh] at houtcome
              exact absurd houtcome (by simp)

theorem get?_trimmed {maxCachedHashes : ℕ} {hashes : OrderedMap String (List Char)}
    {hash : List Char} (h : (trimmed maxCachedHashes hashes).get? segmentName = some hash) :
    hashes.get? segmentName = some hash := by
  unfold trimmed at h
  rw [OrderedMap.get?_foldl_delete] at h
  split_ifs at h
  exact h

/-- An answer publishes a text and settles its request. -/
theorem grows_answer {maxCachedHashes request : ℕ} {sidecar : Option (List Char)}
    (hanswer : v.answer maxCachedHashes request sidecar = some v') : v.Grows v' := by
  obtain ⟨pending, hget, hrest⟩ := Option.bind_eq_some_iff.mp hanswer
  split_ifs at hrest
  obtain rfl := Option.some.inj hrest
  refine ⟨?_, fun other r hother => ?_⟩
  · cases sidecar with
    | some content => exact List.subset_append_left _ _
    | none => exact List.Subset.refl _
  · show ∃ r', (v.requests.set request _)[other]? = some r' ∧ _
    rw [List.getElem?_set]
    split_ifs with hsame hbound
    · rw [hsame] at hget
      obtain rfl := Option.some.inj (hget.symm.trans hother)
      exact ⟨_, rfl, rfl⟩
    · rw [hsame] at hbound
      exact absurd (List.getElem?_eq_some_iff.mp hother).1 hbound
    · exact ⟨r, hother, rfl⟩

theorem Faithful.answer (h : v.Faithful) {maxCachedHashes request : ℕ}
    {sidecar : Option (List Char)}
    (hanswer : v.answer maxCachedHashes request sidecar = some v') : v'.Faithful := by
  have hgrows := grows_answer hanswer
  obtain ⟨pending, hget, hrest⟩ := Option.bind_eq_some_iff.mp hanswer
  split_ifs at hrest
  obtain rfl := Option.some.inj hrest
  have hanswered : ∀ hash, sidecar.bind parseSha256 = some hash → PublishedHash
      (v.settle maxCachedHashes request pending.segmentName sidecar).published
      pending.segmentName hash := by
    intro hash hhash
    obtain ⟨content, rfl, hparse⟩ := Option.bind_eq_some_iff.mp hhash
    refine ⟨content, ?_, hparse⟩
    exact List.mem_append_right v.published (List.mem_singleton_self _)
  refine ⟨fun segmentName hash hstored => ?_, fun segmentName other hpending => ?_,
    fun r hr hash houtcome => ?_⟩
  · unfold settle at hstored
    dsimp only at hstored
    cases hhash : sidecar.bind parseSha256 with
    | none =>
        rw [hhash] at hstored
        exact (h.hashes segmentName hash hstored).mono hgrows.published
    | some new =>
        rw [hhash] at hstored
        have hset := get?_trimmed hstored
        rw [OrderedMap.get?_set] at hset
        split_ifs at hset with hname
        · obtain rfl := Option.some.inj hset
          rw [hname]
          exact hanswered new hhash
        · exact (h.hashes segmentName hash hset).mono hgrows.published
  · unfold settle at hpending
    dsimp only at hpending
    split_ifs at hpending
    · rw [OrderedMap.get?_delete] at hpending
      split_ifs at hpending
      exact (h.pendingHashes segmentName other hpending).mono hgrows
    · exact (h.pendingHashes segmentName other hpending).mono hgrows
  · rcases List.mem_or_eq_of_mem_set hr with hold | rfl
    · exact (h.requests r hold hash houtcome).mono hgrows.published
    · exact hanswered hash (Option.some.inj houtcome)

end OriginHashVerifier

end Node

namespace HybridSegmentFetcher

/-! ## One fetch -/

/-- The event is the check that found the bytes of the result to be the published ones. -/
def Fetch.CheckedBy (fetch : Fetch) (event : FetchEvent) (result : SegmentFetchResult) : Prop :=
  (event = .attempt .hashMatches ∧
      ∃ attempt, fetch.attempt = some attempt ∧ attempt.stage = .verifying result.data) ∨
    event = .origin .hashMatches ∧ fetch.origin = .verifying result.data

/-- If the fetch has ended with bytes, these satisfy a condition. -/
def Fetch.Gives (fetch : Fetch) (P : SegmentFetchResult → Prop) : Prop :=
  ∀ result, fetch.outcome = some (some result) → P result

namespace Fetch

variable {fetch fetch' : Fetch} {P : SegmentFetchResult → Prop}

theorem Gives.of_none (hnone : fetch.outcome = none) : fetch.Gives P := by
  intro result h
  rw [hnone] at h
  exact absurd h (by simp)

theorem Gives.of_outcome (h : fetch.Gives P) (heq : fetch'.outcome = fetch.outcome) :
    fetch'.Gives P := by
  intro result houtcome
  rw [heq] at houtcome
  exact h result houtcome

theorem Gives.reject : fetch.reject.Gives P :=
  fun result h => absurd (Option.some.inj h) (by simp)

theorem Gives.resolve {result : SegmentFetchResult} (hP : P result) :
    (fetch.resolve result).Gives P := by
  intro result' h
  rwa [← Option.some.inj (Option.some.inj h)]

theorem Gives.peerDelivers {peerId : PeerId} {data : List UInt8} (hP : P ⟨data, .p2p⟩) :
    (fetch.peerDelivers peerId data).Gives P := by
  unfold Fetch.peerDelivers
  split_ifs
  · exact Gives.reject
  · exact Gives.resolve hP

theorem Gives.peerFails (h : fetch.Gives P) (peerId : PeerId) (error : Option FailureReason) :
    (fetch.peerFails peerId error).Gives P := by
  have hrecorded : (fetch.recordPeerFailure peerId error).Gives P := h.of_outcome rfl
  unfold Fetch.peerFails
  generalize fetch.recordPeerFailure peerId error = recorded at hrecorded ⊢
  dsimp only
  split_ifs
  · exact Gives.reject
  · split
    · exact hrecorded.of_outcome rfl
    · exact Gives.reject
    · exact hrecorded
  · exact hrecorded.of_outcome rfl

/-- Only an attempt that delivers gives the fetch its bytes. -/
theorem Gives.attemptGoes (h : fetch.Gives P) {attempt : PeerAttempt}
    (hP : ∀ data, attempt.stage = .delivered data → P ⟨data, .p2p⟩) :
    (fetch.attemptGoes attempt).Gives P := by
  have hset : ({ fetch with attempt := some attempt } : Fetch).Gives P := h.of_outcome rfl
  unfold Fetch.attemptGoes
  generalize ({ fetch with attempt := some attempt } : Fetch) = fetch at hset ⊢
  dsimp only
  split_ifs
  · exact hset
  · split
    · rename_i data hstage
      exact Gives.peerDelivers (hP data hstage)
    · exact hset.peerFails _ _
    · exact hset

theorem Gives.originDelivers (h : fetch.Gives P) {data : List UInt8} (hP : P ⟨data, .origin⟩) :
    (fetch.originDelivers data).Gives P := by
  unfold Fetch.originDelivers
  dsimp only
  split_ifs
  · exact h
  · exact Gives.reject
  · have hresolved : (fetch.resolve ⟨data, .origin⟩).Gives P := Gives.resolve hP
    exact hresolved.of_outcome rfl

theorem Gives.originFails (h : fetch.Gives P) : fetch.originFails.Gives P := by
  unfold Fetch.originFails
  dsimp only
  split_ifs
  · exact h
  · exact h
  · exact Gives.reject

theorem Gives.originStep (h : fetch.Gives P) {event : OriginEvent}
    (hP : ∀ data, event = .hashMatches → fetch.origin = .verifying data → P ⟨data, .origin⟩)
    (hstep : fetch.originStep event = some fetch') : fetch'.Gives P := by
  unfold Fetch.originStep at hstep
  split at hstep
  · split_ifs at hstep
    obtain rfl := Option.some.inj hstep
    exact h.of_outcome rfl
  · obtain rfl := Option.some.inj hstep
    exact h.originFails
  · rename_i data horigin
    obtain rfl := Option.some.inj hstep
    exact h.originDelivers (hP data rfl horigin)
  · obtain rfl := Option.some.inj hstep
    exact Gives.originFails (h.of_outcome rfl)
  · obtain rfl := Option.some.inj hstep
    exact h.originFails
  · exact absurd hstep (by simp)

/-- An attempt delivers only bytes that were being checked and matched. -/
theorem stage_of_delivered {options : Node.FetcherOptions} {attempt attempt' : PeerAttempt}
    {event : AttemptEvent} {data : List UInt8} (hstep : attempt.step options event = some attempt')
    (hstage : attempt'.stage = .delivered data) :
    event = .hashMatches ∧ attempt.stage = .verifying data := by
  cases event with
  | hashMatches =>
      simp only [PeerAttempt.step] at hstep
      split at hstep
      · obtain rfl := Option.some.inj hstep
        exact absurd hstage (by simp [PeerAttempt.verify])
      · obtain rfl := Option.some.inj hstep
        exact absurd hstage (by simp [PeerAttempt.verify])
      · rename_i stored hverifying
        obtain rfl := Option.some.inj hstep
        rw [← AttemptStage.delivered.inj hstage]
        exact ⟨rfl, hverifying⟩
      · exact absurd hstep (by simp)
  | timesOut =>
      -- an attempt that has delivered is not under way
      simp only [PeerAttempt.step] at hstep
      split_ifs at hstep with henabled
      obtain rfl := Option.some.inj hstep
      exact absurd henabled.2 (PeerAttempt.not_running_of_delivered hstage)
  | responds | answers bytes | httpError status =>
      simp only [PeerAttempt.step] at hstep
      split at hstep
      all_goals first
        | cases hstep
        | split_ifs at hstep
          all_goals
            obtain rfl := Option.some.inj hstep
            exact absurd hstage (by simp [PeerAttempt.receive, PeerAttempt.refute,
              PeerAttempt.fail, PeerAttempt.transportFails])
  | fails message | hashDiffers | hashUnavailable message =>
      simp only [PeerAttempt.step] at hstep
      split at hstep
      all_goals first
        | obtain rfl := Option.some.inj hstep
          exact absurd hstage (by simp [PeerAttempt.fallBack, PeerAttempt.refute,
            PeerAttempt.fail, PeerAttempt.transportFails])
        | cases hstep

/-- A fetch that ends with bytes ends by their check. -/
theorem gives_step {options : Node.FetcherOptions} {event : FetchEvent}
    (hnone : fetch.outcome = none) (hstep : fetch.step options event = some fetch') :
    fetch'.Gives (fetch.CheckedBy event) := by
  have h : fetch.Gives (fetch.CheckedBy event) := .of_none hnone
  cases event with
  | peersListed peers plan =>
      simp only [Fetch.step] at hstep
      split_ifs at hstep
      split at hstep
      · obtain rfl := Option.some.inj hstep
        exact h.of_outcome rfl
      · split at hstep
        · obtain rfl := Option.some.inj hstep
          exact h.of_outcome rfl
        · obtain rfl := Option.some.inj hstep
          exact h.of_outcome rfl
  | discoveryFails =>
      simp only [Fetch.step] at hstep
      split_ifs at hstep
      obtain rfl := Option.some.inj hstep
      exact h.of_outcome rfl
  | attempt event =>
      obtain ⟨attempt, hattempt, hrest⟩ := Option.bind_eq_some_iff.mp hstep
      obtain ⟨attempt', hattempt', hresult⟩ := Option.bind_eq_some_iff.mp hrest
      obtain rfl := Option.some.inj hresult
      have hcounted : (fetch.countIntegrity attempt event).outcome = fetch.outcome := by
        unfold Fetch.countIntegrity
        split <;> rfl
      apply Gives.attemptGoes (h.of_outcome hcounted)
      intro data hstage
      obtain ⟨rfl, hverifying⟩ := stage_of_delivered hattempt' hstage
      exact Or.inl ⟨rfl, attempt, hattempt, hverifying⟩
  | hedgeDelayEnds =>
      simp only [Fetch.step] at hstep
      split_ifs at hstep
      obtain rfl := Option.some.inj hstep
      exact h.of_outcome rfl
  | hedgeAborted =>
      simp only [Fetch.step] at hstep
      split_ifs at hstep
      obtain rfl := Option.some.inj hstep
      have hrejected : fetch.reject.Gives (fetch.CheckedBy .hedgeAborted) := Gives.reject
      exact hrejected.of_outcome rfl
  | origin event =>
      apply h.originStep _ hstep
      rintro data rfl horigin
      exact Or.inr ⟨rfl, horigin⟩

end Fetch

/-! ## The fetcher -/

/-- A fetch with the hashes its checks wait for. -/
structure NamedFetch where
  segmentName : String
  fetch : Fetch
  attemptHash : Option Node.ExpectedHash
  originHash : Option Node.ExpectedHash

structure VerifiedFetcher where
  stopped : Bool
  fetches : List NamedFetch
  verifier : Node.OriginHashVerifier
  /-- What was stored in the cache, under which name, in order. -/
  stored : List (String × List UInt8)

inductive VerifiedEvent where
  | fetchSegment (segmentName : String) (cached : Option (List UInt8))
  | fetchAssigned (segmentName : String) (cached : Option (List UInt8)) (peer : Option PeerId)
  | abort (i : ℕ)
  | stop
  /-- Anything but a check of the fetcher's own. -/
  | fetch (i : ℕ) (event : FetchEvent)
  /-- The fetcher begins to check the bytes of a peer or of the origin, -/
  | verifyAttempt (i : ℕ)
  | verifyOrigin (i : ℕ)
  /-- a request for a hash ends, -/
  | sidecar (request : ℕ) (text : Option (List Char))
  /-- and the hash the check waited for is there or cannot be had. -/
  | attemptVerified (i : ℕ) (message : String)
  | originVerified (i : ℕ)

namespace NamedFetch

/-- The bytes of a peer that the fetcher itself checks. -/
def attemptBytes? (f : NamedFetch) : Option (List UInt8) :=
  f.fetch.attempt.bind fun attempt =>
    match attempt.stage with
    | .verifying data => some data
    | _ => none

def originBytes? (f : NamedFetch) : Option (List UInt8) :=
  match f.fetch.origin with
  | .verifying data => some data
  | _ => none

/-- The event is the end of a check of the fetcher's own. -/
def ownCheck (f : NamedFetch) : FetchEvent → Bool
  | .attempt .hashMatches | .attempt .hashDiffers | .attempt (.hashUnavailable _) =>
      f.attemptBytes?.isSome
  | .origin .hashMatches | .origin .hashDiffers | .origin .hashUnavailable => true
  | _ => false

end NamedFetch

namespace VerifiedFetcher

variable (sha256 : List UInt8 → List UInt8) (maxCachedHashes : ℕ) (options : Node.FetcherOptions)

def start (s : VerifiedFetcher) (segmentName : String) (cached : Option (List UInt8))
    (fetch : Fetch) : VerifiedFetcher :=
  { s with fetches := s.fetches ++
      [⟨segmentName, (cached.map Fetch.fromCache).getD fetch, none, none⟩] }

/-- What a fetch stores that has just ended. -/
def cache (s : VerifiedFetcher) (segmentName : String) :
    Option (Option SegmentFetchResult) → VerifiedFetcher
  | some (some result) => { s with stored := s.stored ++ [(segmentName, result.data)] }
  | _ => s

/-- An event of a fetch; the bytes it ends with are cached. -/
def fetchStep (s : VerifiedFetcher) (i : ℕ) (event : FetchEvent) : Option VerifiedFetcher := do
  let f ← s.fetches[i]?
  let fetch ← f.fetch.step options event
  let s := { s with fetches := s.fetches.set i { f with fetch := fetch } }
  return if f.fetch.outcome.isSome then s else s.cache f.segmentName fetch.outcome

def verifyAttempt (s : VerifiedFetcher) (i : ℕ) : Option VerifiedFetcher := do
  let f ← s.fetches[i]?
  if f.attemptBytes?.isSome ∧ f.attemptHash.isNone then
    let (verifier, expected) := s.verifier.expectedHash f.segmentName
    some { s with
      verifier
      fetches := s.fetches.set i { f with attemptHash := some expected } }
  else none

def verifyOrigin (s : VerifiedFetcher) (i : ℕ) : Option VerifiedFetcher := do
  let f ← s.fetches[i]?
  if f.originBytes?.isSome ∧ f.originHash.isNone then
    let (verifier, expected) := s.verifier.expectedHash f.segmentName
    some { s with
      verifier
      fetches := s.fetches.set i { f with originHash := some expected } }
  else none

/-- How a check of a peer's bytes ends. -/
def attemptVerdict (message : String) (data : List UInt8) : Option (List Char) → AttemptEvent
  | none => .hashUnavailable message
  | some hash => if Node.verifySegmentHash sha256 data hash then .hashMatches else .hashDiffers

def originVerdict (data : List UInt8) : Option (List Char) → OriginEvent
  | none => .hashUnavailable
  | some hash => if Node.verifySegmentHash sha256 data hash then .hashMatches else .hashDiffers

def attemptVerified (s : VerifiedFetcher) (i : ℕ) (message : String) : Option VerifiedFetcher := do
  let f ← s.fetches[i]?
  let data ← f.attemptBytes?
  let hash ← f.attemptHash.bind s.verifier.hash?
  s.fetchStep options i (.attempt (attemptVerdict sha256 message data hash))

def originVerified (s : VerifiedFetcher) (i : ℕ) : Option VerifiedFetcher := do
  let f ← s.fetches[i]?
  let data ← f.originBytes?
  let hash ← f.originHash.bind s.verifier.hash?
  s.fetchStep options i (.origin (originVerdict sha256 data hash))

def step (s : VerifiedFetcher) : VerifiedEvent → Option VerifiedFetcher
  | .fetchSegment segmentName cached =>
      some (s.start segmentName cached (.fetchUncachedSegment s.stopped))
  | .fetchAssigned segmentName cached peer =>
      some (s.start segmentName cached (.fetchAssignedSegment options s.stopped peer))
  | .abort i => do
      let f ← s.fetches[i]?
      if f.fetch.outcome = none then
        some { s with fetches := s.fetches.set i { f with fetch := f.fetch.abort } }
      else none
  | .stop =>
      if s.stopped then none
      else some { s with
        stopped := true
        fetches := s.fetches.map fun f => { f with fetch := f.fetch.abort } }
  | .fetch i event => do
      let f ← s.fetches[i]?
      if f.ownCheck event then none else s.fetchStep options i event
  | .verifyAttempt i => s.verifyAttempt i
  | .verifyOrigin i => s.verifyOrigin i
  | .sidecar request text => do
      let verifier ← s.verifier.answer maxCachedHashes request text
      return { s with verifier }
  | .attemptVerified i message => s.attemptVerified sha256 options i message
  | .originVerified i => s.originVerified sha256 options i

def system : TransitionSystem VerifiedFetcher VerifiedEvent where
  init s := s = ⟨false, [], .new, []⟩
  step := step sha256 maxCachedHashes options

/-! ### What is cached -/

/-- The bytes have a hash that was published for the name. -/
def Verified (published : List (String × List Char)) (segmentName : String)
    (data : List UInt8) : Prop :=
  ∃ hash, Node.PublishedHash published segmentName hash ∧ sha256 data = hexBytes hash

/-- Checks wait for hashes of their segment. -/
structure Waits (v : Node.OriginHashVerifier) (f : NamedFetch) : Prop where
  attempt : ∀ expected, f.attemptHash = some expected → v.Expects f.segmentName expected
  origin : ∀ expected, f.originHash = some expected → v.Expects f.segmentName expected

structure OnlyVerified (s : VerifiedFetcher) : Prop where
  verifier : s.verifier.Faithful
  waits : ∀ f ∈ s.fetches, Waits s.verifier f
  stored : ∀ segmentName data, (segmentName, data) ∈ s.stored →
    Verified sha256 s.verifier.published segmentName data

variable {sha256 maxCachedHashes options} {s s' : VerifiedFetcher}

theorem Waits.mono {v v' : Node.OriginHashVerifier} {f : NamedFetch} (h : Waits v f)
    (hgrows : v.Grows v') : Waits v' f :=
  ⟨fun expected he => (h.attempt expected he).mono hgrows,
    fun expected he => (h.origin expected he).mono hgrows⟩

/-- Steps of the verifier and of the checks alone. -/
theorem OnlyVerified.of_verifier (h : OnlyVerified sha256 s) (hverifier : s'.verifier.Faithful)
    (hgrows : s.verifier.Grows s'.verifier) (hwaits : ∀ f ∈ s'.fetches, Waits s'.verifier f)
    (hstored : s'.stored = s.stored) : OnlyVerified sha256 s' where
  verifier := hverifier
  waits := hwaits
  stored segmentName data hmem := by
    rw [hstored] at hmem
    obtain ⟨hash, hpublished, hequal⟩ := h.stored segmentName data hmem
    exact ⟨hash, hpublished.mono hgrows.published, hequal⟩

theorem OnlyVerified.start (h : OnlyVerified sha256 s) (segmentName : String)
    (cached : Option (List UInt8)) (fetch : Fetch) :
    OnlyVerified sha256 (s.start segmentName cached fetch) := by
  refine ⟨h.verifier, fun f hmem => ?_, h.stored⟩
  rcases List.mem_append.mp hmem with hold | hnew
  · exact h.waits f hold
  · rw [List.mem_singleton.mp hnew]
    exact ⟨fun _ he => absurd he (by simp), fun _ he => absurd he (by simp)⟩

theorem waits_of_mem_set {v : Node.OriginHashVerifier} {fetches : List NamedFetch} {i : ℕ}
    {f : NamedFetch} (hall : ∀ f ∈ fetches, Waits v f) (hf : Waits v f) :
    ∀ f' ∈ fetches.set i f, Waits v f' := by
  intro f' hmem
  rcases List.mem_or_eq_of_mem_set hmem with hold | rfl
  · exact hall f' hold
  · exact hf

/-- A fetch goes on; where it ends with bytes, their check was the event. -/
theorem OnlyVerified.fetchStep (h : OnlyVerified sha256 s) {i : ℕ} {event : FetchEvent}
    {f : NamedFetch} (hf : s.fetches[i]? = some f)
    (hchecked : ∀ result, f.fetch.CheckedBy event result →
      Verified sha256 s.verifier.published f.segmentName result.data)
    (hstep : s.fetchStep options i event = some s') : OnlyVerified sha256 s' := by
  obtain ⟨f', hf', hrest⟩ := Option.bind_eq_some_iff.mp hstep
  obtain rfl := Option.some.inj (hf.symm.trans hf')
  obtain ⟨fetch, hfetch, hresult⟩ := Option.bind_eq_some_iff.mp hrest
  obtain rfl := Option.some.inj hresult
  have hwaits := h.waits f (List.mem_of_getElem? hf)
  have hset : OnlyVerified sha256 { s with fetches := s.fetches.set i { f with fetch := fetch } } :=
    ⟨h.verifier, waits_of_mem_set h.waits ⟨hwaits.attempt, hwaits.origin⟩, h.stored⟩
  split_ifs with hended
  · exact hset
  · have hnone : f.fetch.outcome = none := by simpa using hended
    have hgives := Fetch.gives_step hnone hfetch
    unfold VerifiedFetcher.cache
    split
    · rename_i result houtcome
      refine ⟨h.verifier, hset.waits, fun segmentName data hmem => ?_⟩
      rcases List.mem_append.mp hmem with hold | hnew
      · exact h.stored segmentName data hold
      · obtain ⟨rfl, rfl⟩ := Prod.mk.inj (List.mem_singleton.mp hnew)
        exact hchecked result (hgives result houtcome)
    · exact hset

theorem attemptBytes?_eq_some {f : NamedFetch} {data : List UInt8} :
    f.attemptBytes? = some data ↔
      ∃ attempt, f.fetch.attempt = some attempt ∧ attempt.stage = .verifying data := by
  unfold NamedFetch.attemptBytes?
  rw [Option.bind_eq_some_iff]
  apply exists_congr
  intro attempt
  apply and_congr_right
  intro _
  split
  · rename_i stored hstage
    rw [hstage, Option.some.injEq, AttemptStage.verifying.injEq]
  · rename_i hother
    exact ⟨fun hnone => absurd hnone (by simp), fun hstage => absurd hstage (hother data)⟩

theorem originBytes?_eq_some {f : NamedFetch} {data : List UInt8} :
    f.originBytes? = some data ↔ f.fetch.origin = .verifying data := by
  unfold NamedFetch.originBytes?
  split
  · rename_i stored horigin
    rw [horigin, Option.some.injEq, OriginStage.verifying.injEq]
  · rename_i hother
    exact ⟨fun hnone => absurd hnone (by simp), fun horigin => absurd horigin (hother data)⟩

/-- Where no check of the fetcher's own ends, no fetch ends with bytes. -/
theorem not_checkedBy_of_ownCheck {f : NamedFetch} {event : FetchEvent}
    (hown : f.ownCheck event = false) (result : SegmentFetchResult) :
    ¬ f.fetch.CheckedBy event result := by
  rintro (⟨rfl, hverifying⟩ | ⟨rfl, -⟩)
  · have hbytes := attemptBytes?_eq_some.mpr hverifying
    have hsome : f.attemptBytes?.isSome = false := hown
    rw [hbytes] at hsome
    exact absurd hsome (by simp)
  · exact absurd hown (by simp [NamedFetch.ownCheck])

theorem verified_of_hash {v : Node.OriginHashVerifier} (hv : v.Faithful) {segmentName : String}
    {expected : Option Node.ExpectedHash} {hash : List Char} {data : List UInt8}
    (hexpects : ∀ e, expected = some e → v.Expects segmentName e)
    (hhash : expected.bind v.hash? = some (some hash))
    (hequal : Node.verifySegmentHash sha256 data hash = true) :
    Verified sha256 v.published segmentName data := by
  obtain ⟨e, he, hready⟩ := Option.bind_eq_some_iff.mp hhash
  exact ⟨hash, hv.publishedHash (hexpects e he) hready, Node.sha256_of_verifySegmentHash hequal⟩

theorem OnlyVerified.attemptVerified (h : OnlyVerified sha256 s) {i : ℕ} {message : String}
    (hstep : s.attemptVerified sha256 options i message = some s') : OnlyVerified sha256 s' := by
  obtain ⟨f, hf, hrest⟩ := Option.bind_eq_some_iff.mp hstep
  obtain ⟨data, hdata, hrest⟩ := Option.bind_eq_some_iff.mp hrest
  obtain ⟨hash, hhash, hfetch⟩ := Option.bind_eq_some_iff.mp hrest
  refine h.fetchStep hf (fun result hchecked => ?_) hfetch
  rcases hchecked with ⟨hevent, attempt, hattempt, hverifying⟩ | ⟨hevent, -⟩
  · obtain rfl : result.data = data := Option.some.inj
      ((attemptBytes?_eq_some.mpr ⟨attempt, hattempt, hverifying⟩).symm.trans hdata)
    cases hash with
    | none => exact absurd hevent (by simp [attemptVerdict])
    | some hash =>
        have hequal : Node.verifySegmentHash sha256 result.data hash = true := by
          by_contra hne
          rw [attemptVerdict, if_neg hne] at hevent
          exact absurd hevent (by simp)
        exact verified_of_hash h.verifier (h.waits f (List.mem_of_getElem? hf)).attempt hhash hequal
  · exact absurd hevent (by simp)

theorem OnlyVerified.originVerified (h : OnlyVerified sha256 s) {i : ℕ}
    (hstep : s.originVerified sha256 options i = some s') : OnlyVerified sha256 s' := by
  obtain ⟨f, hf, hrest⟩ := Option.bind_eq_some_iff.mp hstep
  obtain ⟨data, hdata, hrest⟩ := Option.bind_eq_some_iff.mp hrest
  obtain ⟨hash, hhash, hfetch⟩ := Option.bind_eq_some_iff.mp hrest
  refine h.fetchStep hf (fun result hchecked => ?_) hfetch
  rcases hchecked with ⟨hevent, -⟩ | ⟨hevent, hverifying⟩
  · exact absurd hevent (by simp)
  · obtain rfl : result.data = data := Option.some.inj
      ((originBytes?_eq_some.mpr hverifying).symm.trans hdata)
    cases hash with
    | none => exact absurd hevent (by simp [originVerdict])
    | some hash =>
        have hequal : Node.verifySegmentHash sha256 result.data hash = true := by
          by_contra hne
          rw [originVerdict, if_neg hne] at hevent
          exact absurd hevent (by simp)
        exact verified_of_hash h.verifier (h.waits f (List.mem_of_getElem? hf)).origin hhash hequal

theorem OnlyVerified.verifyAttempt (h : OnlyVerified sha256 s) {i : ℕ}
    (hstep : s.verifyAttempt i = some s') : OnlyVerified sha256 s' := by
  obtain ⟨f, hf, hrest⟩ := Option.bind_eq_some_iff.mp hstep
  split_ifs at hrest
  obtain rfl := Option.some.inj hrest
  have hgrows := Node.OriginHashVerifier.grows_expectedHash s.verifier f.segmentName
  obtain ⟨hfaithful, hexpects⟩ := h.verifier.expectedHash f.segmentName
  have hf' := (h.waits f (List.mem_of_getElem? hf)).mono hgrows
  refine h.of_verifier hfaithful hgrows (waits_of_mem_set ?_ ⟨?_, hf'.origin⟩) rfl
  · exact fun f hmem => (h.waits f hmem).mono hgrows
  · intro expected he
    rwa [← Option.some.inj he]

theorem OnlyVerified.verifyOrigin (h : OnlyVerified sha256 s) {i : ℕ}
    (hstep : s.verifyOrigin i = some s') : OnlyVerified sha256 s' := by
  obtain ⟨f, hf, hrest⟩ := Option.bind_eq_some_iff.mp hstep
  split_ifs at hrest
  obtain rfl := Option.some.inj hrest
  have hgrows := Node.OriginHashVerifier.grows_expectedHash s.verifier f.segmentName
  obtain ⟨hfaithful, hexpects⟩ := h.verifier.expectedHash f.segmentName
  have hf' := (h.waits f (List.mem_of_getElem? hf)).mono hgrows
  refine h.of_verifier hfaithful hgrows (waits_of_mem_set ?_ ⟨hf'.attempt, ?_⟩) rfl
  · exact fun f hmem => (h.waits f hmem).mono hgrows
  · intro expected he
    rwa [← Option.some.inj he]

theorem OnlyVerified.step (h : OnlyVerified sha256 s) {event : VerifiedEvent}
    (hstep : s.step sha256 maxCachedHashes options event = some s') : OnlyVerified sha256 s' := by
  cases event with
  | fetchSegment segmentName cached =>
      obtain rfl := Option.some.inj hstep
      exact h.start segmentName cached _
  | fetchAssigned segmentName cached peer =>
      obtain rfl := Option.some.inj hstep
      exact h.start segmentName cached _
  | abort i =>
      obtain ⟨f, hf, hrest⟩ := Option.bind_eq_some_iff.mp hstep
      split_ifs at hrest
      obtain rfl := Option.some.inj hrest
      have hf' := h.waits f (List.mem_of_getElem? hf)
      exact ⟨h.verifier, waits_of_mem_set h.waits ⟨hf'.attempt, hf'.origin⟩, h.stored⟩
  | stop =>
      simp only [VerifiedFetcher.step] at hstep
      split_ifs at hstep
      obtain rfl := Option.some.inj hstep
      refine ⟨h.verifier, fun f hmem => ?_, h.stored⟩
      obtain ⟨f', hmem', rfl⟩ := List.mem_map.mp hmem
      exact ⟨(h.waits f' hmem').attempt, (h.waits f' hmem').origin⟩
  | fetch i event =>
      obtain ⟨f, hf, hrest⟩ := Option.bind_eq_some_iff.mp hstep
      split_ifs at hrest with hown
      refine h.fetchStep hf (fun result hchecked => ?_) hrest
      exact absurd hchecked (not_checkedBy_of_ownCheck (by simpa using hown) result)
  | verifyAttempt i => exact h.verifyAttempt hstep
  | verifyOrigin i => exact h.verifyOrigin hstep
  | sidecar request text =>
      obtain ⟨verifier, hanswer, hrest⟩ := Option.bind_eq_some_iff.mp hstep
      obtain rfl := Option.some.inj hrest
      have hgrows := Node.OriginHashVerifier.grows_answer hanswer
      refine h.of_verifier (h.verifier.answer hanswer) hgrows (fun f hmem => ?_) rfl
      exact (h.waits f hmem).mono hgrows
  | attemptVerified i message => exact h.attemptVerified hstep
  | originVerified i => exact h.originVerified hstep

theorem onlyVerified_of_reachable
    (hr : (system sha256 maxCachedHashes options).Reachable (fun _ _ => True) s) :
    OnlyVerified sha256 s := by
  apply hr.invariant (OnlyVerified sha256)
  · rintro s rfl
    exact ⟨.new, fun f hmem => absurd hmem List.not_mem_nil,
      fun _ _ hmem => absurd hmem List.not_mem_nil⟩
  · exact fun s event s' h _ hstep => h.step hstep

end VerifiedFetcher

end HybridSegmentFetcher

end OpenStreamGrid
