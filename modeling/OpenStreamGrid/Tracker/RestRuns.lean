import OpenStreamGrid.Tracker.RestConfinement

/-!
# Runs of REST requests

Requests in any order, by anybody, with whatever else the tracker does to its
store in between. The HMAC is not forged: a signature that verifies was made by
the service, when it granted a session.
-/

namespace OpenStreamGrid

namespace RestApi

/-- The store, and the sessions granted so far. -/
structure State (σ : Type) where
  store : σ
  granted : List PeerSessionPayload

inductive Step (σ : Type) where
  | request (request : RestRequest)
  /-- The rest of the tracker: reports over WebSocket, and the sweep of stale peers. -/
  | elsewhere (store : σ)

section Runs

variable {σ : Type} {T : TrackerStoreBackend σ} (K : T.KeepsApart) (api : RestApi)

def step (T : TrackerStoreBackend σ) (s : State σ) : Step σ → State σ
  | .request r =>
      let outcome := handle T api s.store r
      ⟨outcome.store, outcome.granted.toList ++ s.granted⟩
  | .elsewhere store => { s with store }

def system (T : TrackerStoreBackend σ) : TransitionSystem (State σ) (Step σ) where
  init s := s = ⟨T.new, []⟩
  step s e := some (api.step T s e)

/-- The caller's API key, in its own header or as the bearer token. -/
def CarriesKey (r : RestRequest) : Prop :=
  ∃ key, api.apiKey = some key ∧
    (r.providedApiKey = some key ∨ bearerToken r.authorization = some key)

/-- Whoever presents a right signature has it from the service. -/
def Unforged (s : State σ) (r : RestRequest) : Prop :=
  ∀ text ∈ bearerToken r.authorization, ∀ parts ∈ PeerSessionTokenService.tokenParts text,
    parts.2 = api.peerSessions.sign parts.1 →
    ∃ claims ∈ s.granted, api.peerSessions.encode claims = parts.1

/-- Nothing is forged, what is signed can be read back, and only requests join peers. -/
def Trusted (s : State σ) : Step σ → Prop
  | .request r => api.Unforged s r ∧
      ∀ claims ∈ (handle T api s.store r).granted, api.peerSessions.ReadsBack claims
  | .elsewhere store => ∀ b p, (K.record store b p).isSome → (K.record s.store b p).isSome

/-- What holds along every run: no stored peer's ID holds a NUL, and every session
granted is read back from its payload. -/
structure Sound (s : State σ) : Prop where
  plain : K.toStoreParts.PlainPeers s.store
  readsBack : ∀ claims ∈ s.granted, api.peerSessions.ReadsBack claims

variable {K api} {s : σ} {r : RestRequest} {c : Credentials}

theorem hasAdminAccess_eq_false (hkey : api.apiKey.isSome) (hcarries : ¬ api.CarriesKey r) :
    (api.credentials r).hasAdminAccess = false := by
  obtain ⟨key, hkey⟩ := Option.isSome_iff_exists.mp hkey
  have hheader : r.providedApiKey ≠ some key := fun h => hcarries ⟨key, hkey, Or.inl h⟩
  have hbearer : bearerToken r.authorization ≠ some key := fun h => hcarries ⟨key, hkey, Or.inr h⟩
  show (api.apiKey.isNone || (r.providedApiKey.isSome && r.providedApiKey = api.apiKey) ||
    ((bearerToken r.authorization).isSome && bearerToken r.authorization = api.apiKey)) = false
  rw [hkey, decide_eq_false hheader, decide_eq_false hbearer, Bool.and_false, Bool.and_false]
  rfl

/-! ## Only plain IDs are stored -/

/-- Whoever is stored afterwards was stored before or has a plain ID. -/
def JoinsPlain (K : T.KeepsApart) (s : σ) (o : RestOutcome σ) : Prop :=
  ∀ b p, (K.record o.store b p).isSome → (K.record s b p).isSome ∨ PlainId p

theorem joinsPlain_same {o : RestOutcome σ} (h : o.store = s) : JoinsPlain K s o := by
  intro b p hp
  rw [h] at hp
  exact Or.inl hp

theorem joinsPlain_fail (e : RequestError) : JoinsPlain K s (fail s e) := joinsPlain_same rfl

theorem joinsPlain_report {α : Type} {b : BroadcastId} {p : PeerId}
    {f : σ → Except StoreError (σ × α)} (hf : K.toStoreParts.ConfinedReport b p f)
    {next : σ → α → RestOutcome σ} (hnext : ∀ s' a, (next s' a).store = s') :
    JoinsPlain K s (stored s (f s) next) := by
  refine stored_rule joinsPlain_fail fun s' a hok => ?_
  intro b' p' hp
  rw [hnext] at hp
  by_cases hbp : b' = b ∧ p' = p
  · rw [hbp.1, hbp.2]
    exact Or.inl (hf.present hok)
  · rw [hf.others hok hbp] at hp
    exact Or.inl hp

theorem joinsPlain_joinPeer (b : BroadcastId) : JoinsPlain K s (joinPeer T api s r c b) := by
  refine guarded_rule joinsPlain_fail fun body _ => ?_
  refine guarded_rule joinsPlain_fail fun join hjoin => ?_
  refine guarded_rule joinsPlain_fail fun id _ => ?_
  have hstore : ∀ s' peer already,
      T.joinPeerDetailed s r.handledAt b join ⟨some api.maxPeersPerBroadcast⟩
        = .ok (s', peer, already) →
      ∀ o : RestOutcome σ, o.store = s' → JoinsPlain K s o := by
    intro s' peer already hok o ho b' p' hp
    rw [ho] at hp
    by_cases hbp : b' = b ∧ p' = join.id
    · rw [hbp.2]
      exact Or.inr (plainId_of_readJoin hjoin)
    · rw [(K.joins _ _ _ _).others hok hbp] at hp
      exact Or.inl hp
  unfold joinChecked
  cases hjoined : T.joinPeerDetailed s r.handledAt b join ⟨some api.maxPeersPerBroadcast⟩ with
  | error e => exact joinsPlain_fail _
  | ok result =>
      obtain ⟨s', peer, already⟩ := result
      refine guarded_rule (fun e => hstore s' peer already hjoined _ rfl) fun _ _ => ?_
      exact hstore s' peer already hjoined _ rfl

theorem joinsPlain_peerAction {encodedBroadcast encodedPeer : String}
    {action : BroadcastId → PeerId → JsonObject → RestOutcome σ}
    (haction : ∀ b p body, JoinsPlain K s (action b p body)) :
    JoinsPlain K s (peerAction s r encodedBroadcast encodedPeer action) := by
  refine guarded_rule joinsPlain_fail fun b _ => ?_
  refine guarded_rule joinsPlain_fail fun p _ => ?_
  exact guarded_rule joinsPlain_fail fun body _ => haction b p body

theorem joinsPlain_reads {α : Type} {check : Except RequestError α} {next : α → RestOutcome σ}
    (hnext : ∀ a, (next a).store = s) : JoinsPlain K s (guarded s check next) :=
  guarded_rule joinsPlain_fail fun a _ => joinsPlain_same (hnext a)

theorem joinsPlain_handle : JoinsPlain K s (handle T api s r) := by
  refine guarded_rule joinsPlain_fail fun _ _ => ?_
  cases r.route with
  | preflight => exact joinsPlain_same rfl
  | health => exact joinsPlain_same rfl
  | metrics => exact joinsPlain_reads fun _ => rfl
  | dashboard => exact joinsPlain_reads fun _ => rfl
  | globalStats => exact joinsPlain_reads fun _ => rfl
  | statsEvents =>
      refine joinsPlain_reads fun _ => ?_
      split_ifs <;> rfl
  | registerBroadcast =>
      refine guarded_rule joinsPlain_fail fun _ _ => ?_
      refine guarded_rule joinsPlain_fail fun body _ => ?_
      refine guarded_rule joinsPlain_fail fun registration _ => ?_
      intro b p hp
      have hsame := K.registers s r.handledAt registration b p
      exact Or.inl (hsame ▸ hp)
  | listBroadcasts => exact joinsPlain_reads fun _ => rfl
  | broadcastStats encoded =>
      refine guarded_rule joinsPlain_fail fun _ _ => ?_
      refine joinsPlain_reads fun b => ?_
      cases T.getBroadcastStats s b <;> rfl
  | reportSegments encodedBroadcast encodedPeer =>
      refine joinsPlain_peerAction fun b p body => ?_
      refine guarded_rule joinsPlain_fail fun id _ => ?_
      refine guarded_rule joinsPlain_fail fun replace _ => ?_
      cases segmentIdListOf (body.get "segments") with
      | none => exact joinsPlain_fail _
      | some segments =>
          dsimp only
          split_ifs
          · exact joinsPlain_report (K.reportsSegments _ _ _ _ _) fun _ _ => rfl
          · exact joinsPlain_fail _
  | heartbeat encodedBroadcast encodedPeer =>
      refine joinsPlain_peerAction fun b p body => ?_
      refine guarded_rule joinsPlain_fail fun id _ => ?_
      refine guarded_rule joinsPlain_fail fun heartbeat _ => ?_
      exact joinsPlain_report (K.heartbeats _ _ _ _) fun _ _ => rfl
  | reportStats encodedBroadcast encodedPeer =>
      refine joinsPlain_peerAction fun b p body => ?_
      refine guarded_rule joinsPlain_fail fun id _ => ?_
      refine guarded_rule joinsPlain_fail fun stats _ => ?_
      exact joinsPlain_report (K.reportsStats _ _ _ _) fun _ _ => rfl
  | reportFailure encodedBroadcast encodedPeer =>
      refine joinsPlain_peerAction fun b p body => ?_
      refine guarded_rule joinsPlain_fail fun report _ => ?_
      refine guarded_rule joinsPlain_fail fun id _ => ?_
      exact joinsPlain_report (K.reportsFailure _ _ _ _) fun _ _ => rfl
  | otherAction encodedBroadcast encodedPeer =>
      exact joinsPlain_peerAction fun b p body => joinsPlain_fail _
  | joinPeer encoded =>
      exact guarded_rule joinsPlain_fail fun b _ => joinsPlain_joinPeer b
  | listPeers encoded =>
      refine guarded_rule joinsPlain_fail fun b _ => ?_
      refine joinsPlain_reads fun id => ?_
      cases visiblePeers T s r (api.credentials r) b id r.segment <;> rfl
  | leavePeer encodedBroadcast encodedPeer =>
      refine guarded_rule joinsPlain_fail fun b _ => ?_
      refine guarded_rule joinsPlain_fail fun p _ => ?_
      refine guarded_rule joinsPlain_fail fun id _ => ?_
      exact joinsPlain_report (K.leaves _ _) fun _ _ => rfl
  | getBroadcast encoded =>
      refine guarded_rule joinsPlain_fail fun b _ => ?_
      refine joinsPlain_reads fun id => ?_
      cases T.getBroadcast s b with
      | error e => rfl
      | ok broadcast =>
          dsimp only
          cases visiblePeers T s r (api.credentials r) b id none <;> rfl
  | unregisterBroadcast encoded =>
      refine guarded_rule joinsPlain_fail fun b _ => ?_
      refine guarded_rule joinsPlain_fail fun _ _ => ?_
      refine stored_rule joinsPlain_fail fun s' a hok => ?_
      obtain ⟨t, hremoved, rfl⟩ := StoreParts.map_eq_ok hok
      intro b' p' hp
      exact Or.inl (K.unregisters hremoved b' p' hp)
  | otherResource encoded => exact joinsPlain_reads fun _ => rfl
  | notFound => exact joinsPlain_fail _

theorem sound_step {s : State σ} {e : Step σ} (h : Sound K api s) (htrusted : Trusted K api s e) :
    Sound K api (api.step T s e) := by
  cases e with
  | request r =>
      refine ⟨fun b p hp => ?_, fun claims hclaims => ?_⟩
      · rcases joinsPlain_handle (K := K) (s := s.store) (r := r) b p hp with hold | hplain
        · exact h.plain b p hold
        · exact hplain
      · rcases List.mem_append.mp hclaims with hnew | hold
        · exact htrusted.2 claims (Option.mem_toList.mp hnew)
        · exact h.readsBack claims hold
  | elsewhere store => exact ⟨fun b p hp => h.plain b p (htrusted b p hp), h.readsBack⟩

theorem sound_of_reachable {s : State σ} (hr : (api.system T).Reachable (Trusted K api) s) :
    Sound K api s := by
  refine hr.invariant _ ?_ ?_
  · rintro s rfl
    refine ⟨fun b p hp => ?_, fun claims hclaims => absurd hclaims List.not_mem_nil⟩
    rw [K.new_record] at hp
    exact absurd hp Bool.false_ne_true
  · rintro s e s' h htrusted hstep
    obtain rfl := Option.some.inj hstep
    exact sound_step h htrusted

/-! ## Confinement -/

/-- A request without the key, in some state. -/
structure ConfinesPeers (K : T.KeepsApart) (api : RestApi) (s : State σ) (r : RestRequest) :
    Prop where
  /-- A session the request acts with was granted by the service. -/
  issued : ∀ session, (api.credentials r).session = some session → session ∈ s.granted
  /-- It changes its own peer, makes one that is absent, or lowers one's quality. -/
  changes : ChangesEntitled K api s.store r (api.credentials r) (handle T api s.store r)
  /-- About its session's broadcast, it reads and changes nothing of any other. -/
  keepsTo : ∀ session, (api.credentials r).session = some session →
    r.route.Concerns session.broadcastId → ∀ store, K.SameOf session.broadcastId s.store store →
    KeepsTo K session.broadcastId s.store (handle T api s.store r) (handle T api store r)
  /-- About anything else, its token is of no use. -/
  tokenless : ∀ session, (api.credentials r).session = some session →
    ¬ r.route.Concerns session.broadcastId →
    SameUpToReason (handle T api s.store r) (handle T api s.store r.anonymous)

theorem issued_of_unforged {s : State σ} (h : Sound K api s) (hunforged : api.Unforged s r)
    {session : PeerSessionPayload} (hsession : (api.credentials r).session = some session) :
    session ∈ s.granted := by
  obtain ⟨text, payload, htext, hparts, hpayload, -⟩ :=
    PeerSessionTokenService.verify_eq_some hsession
  obtain ⟨claims, hclaims, rfl⟩ := hunforged text htext _ hparts rfl
  have hread := h.readsBack claims hclaims
  rw [PeerSessionTokenService.ReadsBack, hpayload] at hread
  rwa [Option.some.inj hread]

theorem confinesPeers {s : State σ} (h : Sound K api s) (hunforged : api.Unforged s r)
    (hadmin : (api.credentials r).hasAdminAccess = false) : ConfinesPeers K api s r where
  issued := fun session hsession => issued_of_unforged h hunforged hsession
  changes := changesEntitled_handle hadmin
  keepsTo := fun session hsession hroute store hsame => keepsTo_handle h.plain hsame hadmin hroute
  tokenless := by
    intro session hsession hroute
    refine handle_anonymous hadmin fun b hb p hacts => ?_
    obtain ⟨session', hsession', rfl, -⟩ := hacts
    obtain rfl := Option.some.inj (hsession'.symm.trans hsession)
    exact hroute hb

end Runs

/-- **Peers are confined**: with an API key configured, on either store, whatever
has been requested before, a request without the key acts as the peer of its
token alone, and a token serves no other broadcast than its own. IDs are well-formed
Unicode texts, without lone surrogates. -/
theorem rest_confines_peers (api : RestApi) (maxSegmentsPerPeer : ℕ) (hkey : api.apiKey.isSome) :
    (∀ s, (api.system (TrackerStore.backend maxSegmentsPerPeer)).Reachable
        (Trusted (TrackerStore.keepsApart maxSegmentsPerPeer) api) s →
      ∀ r, ¬ api.CarriesKey r → api.Unforged s r →
        ConfinesPeers (TrackerStore.keepsApart maxSegmentsPerPeer) api s r) ∧
    ∀ s, (api.system (SQLiteStore.backend maxSegmentsPerPeer)).Reachable
        (Trusted (SQLiteStore.keepsApart maxSegmentsPerPeer) api) s →
      ∀ r, ¬ api.CarriesKey r → api.Unforged s r →
        ConfinesPeers (SQLiteStore.keepsApart maxSegmentsPerPeer) api s r := by
  constructor
  · intro s hr r hcarries hunforged
    exact confinesPeers (sound_of_reachable hr) hunforged (hasAdminAccess_eq_false hkey hcarries)
  · intro s hr r hcarries hunforged
    exact confinesPeers (sound_of_reachable hr) hunforged (hasAdminAccess_eq_false hkey hcarries)

/-! ## A viewer's report -/

def viewerClaims : PeerSessionPayload := ⟨"live", "viewer-1", 3600020⟩

/-- The base64url text of the claims' JSON. -/
def viewerPayload : String :=
  "eyJ2IjoxLCJicm9hZGNhc3RJZCI6ImxpdmUiLCJwZWVySWQiOiJ2aWV3ZXItMSIsImV4cGlyZXNBdCI6MzYwMDAyMH0"

/-- The payload's HMAC under the secret `0123456789abcdef0123456789abcdef`. -/
def viewerSignature : String := "UVLUc_SUrBjaa8vwCiN8rDfEKreP5-uWvvYl6bdQjQk"

/-- An API whose secret and codec are used for one payload. -/
def viewerApi : RestApi where
  apiKey := some "tracker-key"
  peerSessions :=
    { ttlMs := 3600000
      sign := fun payload => if payload = viewerPayload then viewerSignature else ""
      encode := fun claims => if claims = viewerClaims then viewerPayload else ""
      decode := fun text =>
        if text = viewerPayload then
          some (.record [("v", .number (.finite 1)), ("broadcastId", .string "live"),
            ("peerId", .string "viewer-1"), ("expiresAt", .number (.finite 3600020))])
        else none }
  maxPeersPerBroadcast := 500
  statsEvents := false
  parseUrl := fun address =>
    if address = "webrtc://viewer-1" then some ⟨"webrtc:", "", "", "viewer-1", "", "", ""⟩ else none

def posted (pathname : String) (fields : JsonObject) (time : Timestamp) : RestRequest where
  method := "POST"
  pathname := pathname
  segment := none
  providedApiKey := none
  authorization := none
  body := ⟨100, some (.record fields)⟩
  verifiedAt := time
  handledAt := time
  retryAfter := none
  inventoryAdmits := true
  peerView := fun _ _ => none

def registerLive : RestRequest :=
  { posted "/api/v1/broadcasts"
      [("id", .string "live"), ("playlistUrl", .string "http://origin/live.m3u8")] 10 with
    providedApiKey := some "tracker-key" }

def joinViewer : RestRequest :=
  posted "/api/v1/broadcasts/live/peers"
    [("id", .string "viewer-1"), ("address", .string "webrtc://viewer-1")] 20

def reportViewer : RestRequest :=
  { posted "/api/v1/broadcasts/live/peers/viewer-1/segments"
      [("segments", .array [.string "segment-7.ts"])] 30 with
    authorization := some ("Bearer " ++ viewerPayload ++ "." ++ viewerSignature) }

/-- The state after the broadcast is registered and the viewer has joined. -/
def viewerJoined {σ : Type} (T : TrackerStoreBackend σ) : State σ :=
  viewerApi.step T (viewerApi.step T ⟨T.new, []⟩ (.request registerLive)) (.request joinViewer)

instance (api : RestApi) {σ : Type} (s : State σ) (r : RestRequest) : Decidable (api.Unforged s r) :=
  inferInstanceAs (Decidable (∀ text ∈ bearerToken r.authorization,
    ∀ parts ∈ PeerSessionTokenService.tokenParts text,
      parts.2 = api.peerSessions.sign parts.1 →
      ∃ claims ∈ s.granted, api.peerSessions.encode claims = parts.1))

/-- The report is sent with the token of the granted session. -/
theorem bearerToken_reportViewer : bearerToken reportViewer.authorization =
    some (viewerPayload ++ "." ++ viewerSignature) := by
  decide +kernel

theorem tokenParts_viewer : PeerSessionTokenService.tokenParts
    (viewerPayload ++ "." ++ viewerSignature) = some (viewerPayload, viewerSignature) := by
  decide +kernel

theorem session_reportViewer : (viewerApi.credentials reportViewer).session = some viewerClaims := by
  simp only [credentials, bearerToken_reportViewer]
  unfold PeerSessionTokenService.verify
  rw [Option.bind_some, tokenParts_viewer]
  decide +kernel

theorem unforged_reportViewer {σ : Type} {s : State σ} (h : viewerClaims ∈ s.granted) :
    viewerApi.Unforged s reportViewer := by
  intro text htext parts hparts _
  rw [bearerToken_reportViewer] at htext
  obtain rfl := Option.some.inj htext
  rw [tokenParts_viewer] at hparts
  obtain rfl := Option.some.inj hparts
  exact ⟨viewerClaims, h, by decide +kernel⟩

theorem not_carriesKey_reportViewer : ¬ viewerApi.CarriesKey reportViewer := by
  rintro ⟨key, hkey, hheader | hbearer⟩
  · exact absurd hheader (by simp [reportViewer, posted])
  · obtain rfl := Option.some.inj hkey
    rw [bearerToken_reportViewer] at hbearer
    exact absurd hbearer (by decide +kernel)

/-- The viewer acts with the session it was granted, and is confined to itself. -/
theorem rest_confines_peers_viewer :
    (viewerApi.credentials reportViewer).session = some viewerClaims ∧
      ConfinesPeers (TrackerStore.keepsApart 2000) viewerApi
        (viewerJoined (TrackerStore.backend 2000)) reportViewer ∧
      ConfinesPeers (SQLiteStore.keepsApart 2000) viewerApi
        (viewerJoined (SQLiteStore.backend 2000)) reportViewer := by
  refine ⟨session_reportViewer, ?_, ?_⟩
  · refine (rest_confines_peers viewerApi 2000 rfl).1 _ ?_ _ not_carriesKey_reportViewer
      (unforged_reportViewer (by decide +kernel))
    refine .step (.step (.init rfl) (e := .request registerLive) ?_ rfl)
      (e := .request joinViewer) ?_ rfl
    · exact ⟨by decide +kernel, by decide +kernel⟩
    · exact ⟨by decide +kernel, by decide +kernel⟩
  · refine (rest_confines_peers viewerApi 2000 rfl).2 _ ?_ _ not_carriesKey_reportViewer
      (unforged_reportViewer (by decide +kernel))
    refine .step (.step (.init rfl) (e := .request registerLive) ?_ rfl)
      (e := .request joinViewer) ?_ rfl
    · exact ⟨by decide +kernel, by decide +kernel⟩
    · exact ⟨by decide +kernel, by decide +kernel⟩

end RestApi

end OpenStreamGrid
