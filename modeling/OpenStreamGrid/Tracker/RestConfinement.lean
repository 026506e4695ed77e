import OpenStreamGrid.Lib.TransitionSystem
import OpenStreamGrid.Tracker.RestRoutes
import OpenStreamGrid.Tracker.SqliteParts

/-!
# What a peer can do over REST

A request without the API key acts as the peer its token names, or as nobody.
Each route is a chain of checks that end in one store operation, so its rules are
those of the two combinators; what the operation can change is the store's
`KeepsApart`.
-/

namespace OpenStreamGrid

/-- The broadcast of a route's path, still encoded. -/
def Route.broadcastId? : Route → Option String
  | .broadcastStats b => some b
  | .reportSegments b _ => some b
  | .heartbeat b _ => some b
  | .reportStats b _ => some b
  | .reportFailure b _ => some b
  | .otherAction b _ => some b
  | .joinPeer b => some b
  | .listPeers b => some b
  | .leavePeer b _ => some b
  | .getBroadcast b => some b
  | .unregisterBroadcast b => some b
  | .otherResource b => some b
  | _ => none

/-- The same request without its token. -/
def RestRequest.anonymous (r : RestRequest) : RestRequest := { r with authorization := none }

/-- The route is about a broadcast. -/
def Route.Concerns (route : Route) (b : BroadcastId) : Prop :=
  ∃ encoded, route.broadcastId? = some encoded ∧ decodedPathComponent encoded = .ok b

namespace RestApi

section Checks

variable {c : Credentials} {b : BroadcastId} {p? : Option PeerId} {id : PeerId}

/-- The caller holds a session of a peer of the broadcast. -/
def Credentials.ActsAs (c : Credentials) (b : BroadcastId) (p : PeerId) : Prop :=
  ∃ session, c.session = some session ∧ session.broadcastId = b ∧ session.peerId = p

theorem requireAdminAccess_error (hadmin : c.hasAdminAccess = false) :
    requireAdminAccess c = .error (if c.absent then missingApiKey else invalidApiKey) := by
  unfold requireAdminAccess
  rw [hadmin]
  rfl

theorem requirePeerSession_ok (hadmin : c.hasAdminAccess = false)
    (h : requirePeerSession c b p? = .ok id) :
    c.ActsAs b id ∧ ∀ p, p? = some p → id = p := by
  unfold requirePeerSession at h
  rw [hadmin, if_neg Bool.false_ne_true] at h
  cases hsession : c.session with
  | none =>
      rw [hsession] at h
      exact absurd h (by simp)
  | some session =>
      rw [hsession] at h
      dsimp only at h
      split_ifs at h with hother
      obtain rfl := Except.ok.inj h
      rw [not_or, not_not] at hother
      refine ⟨⟨session, hsession, hother.1, rfl⟩, ?_⟩
      rintro p rfl
      have hsame := hother.2
      rw [Option.any_some, decide_eq_true_eq, not_not] at hsame
      exact hsame

/-- A session of another broadcast is no session. -/
theorem requirePeerSession_error (hadmin : c.hasAdminAccess = false)
    (hother : ∀ p, ¬ c.ActsAs b p) : requirePeerSession c b p? = .error missingPeerSession := by
  cases h : requirePeerSession c b p? with
  | ok id => exact absurd (requirePeerSession_ok hadmin h).1 (hother id)
  | error e =>
      unfold requirePeerSession at h
      rw [hadmin, if_neg Bool.false_ne_true] at h
      cases hsession : c.session with
      | none =>
          rw [hsession] at h
          exact h.symm
      | some session =>
          rw [hsession] at h
          dsimp only at h
          split_ifs at h
          exact h.symm

end Checks

/-! ## The rules of the combinators -/

section Rules

variable {σ α : Type} {s : σ} {Q : RestOutcome σ → Prop}

theorem guarded_rule {check : Except RequestError α} {next : α → RestOutcome σ}
    (hfail : ∀ e, Q (fail s e)) (hnext : ∀ a, check = .ok a → Q (next a)) :
    Q (guarded s check next) := by
  unfold guarded
  cases hcheck : check with
  | error e => exact hfail e
  | ok a => exact hnext a hcheck

theorem stored_rule {result : Except StoreError (σ × α)} {next : σ → α → RestOutcome σ}
    (hfail : ∀ e, Q (fail s e)) (hnext : ∀ s' a, result = .ok (s', a) → Q (next s' a)) :
    Q (stored s result next) := by
  unfold stored
  cases hresult : result with
  | error e => exact hfail _
  | ok x => exact hnext x.1 x.2 hresult

end Rules

/-! ## What changes -/

section Changes

variable {σ : Type} {T : TrackerStoreBackend σ} (K : T.KeepsApart) (api : RestApi) (s : σ)
  (r : RestRequest) (c : Credentials)

/-- Why a caller without the key may change a peer's record. -/
inductive Entitled (after : σ) (b : BroadcastId) (p : PeerId) : Prop where
  | own (hacts : c.ActsAs b p)
  | created {encoded : String} {body : JsonObject} {join : PeerJoinRequest}
      (hroute : r.route = .joinPeer encoded) (hbroadcast : decodedPathComponent encoded = .ok b)
      (hbody : readJson r.body = .ok body) (hjoin : readJoin api.parseUrl body = .ok join)
      (hpeer : join.id = p) (habsent : K.record s b p = none)
  | blamed {encodedBroadcast encodedPeer : String} {body : JsonObject}
      {report : PeerFailureReport}
      (hroute : r.route = .reportFailure encodedBroadcast encodedPeer)
      (hbroadcast : decodedPathComponent encodedBroadcast = .ok b)
      (hpeer : decodedPathComponent encodedPeer = .ok p)
      (hbody : readJson r.body = .ok body) (hreport : readFailureReport body = .ok report)
      (hacts : c.ActsAs b report.reporterId)
      (hlowered : QualityLowered (K.record s b p) (K.record after b p))

/-- Whoever's record is not as before, the caller is entitled to change. -/
def ChangesEntitled (o : RestOutcome σ) : Prop :=
  ∀ b p, K.record o.store b p ≠ K.record s b p → Entitled K api s r c o.store b p

variable {K api s r c}

theorem changesEntitled_same {o : RestOutcome σ} (h : o.store = s) :
    ChangesEntitled K api s r c o := by
  intro b p hne
  rw [h] at hne
  exact absurd rfl hne

theorem changesEntitled_fail (e : RequestError) : ChangesEntitled K api s r c (fail s e) :=
  changesEntitled_same rfl

/-- A confined operation on the caller's own peer. -/
theorem changesEntitled_own {α : Type} {b : BroadcastId} {p : PeerId}
    {f : σ → Except StoreError (σ × α)} (hf : K.toStoreParts.Confined b p f)
    (hacts : c.ActsAs b p) {s' : σ} {a : α} (hok : f s = .ok (s', a)) {o : RestOutcome σ}
    (ho : o.store = s') : ChangesEntitled K api s r c o := by
  intro b' p' hne
  rw [ho] at hne
  by_cases hbp : b' = b ∧ p' = p
  · rw [hbp.1, hbp.2]
    exact .own hacts
  · exact absurd (hf.others hok hbp) hne

theorem changesEntitled_reportSegments (hadmin : c.hasAdminAccess = false) (b : BroadcastId)
    (p : PeerId) (body : JsonObject) :
    ChangesEntitled K api s r c (reportSegments T s r c b p body) := by
  refine guarded_rule changesEntitled_fail fun id hid => ?_
  obtain ⟨hacts, hsame⟩ := requirePeerSession_ok hadmin hid
  obtain rfl := hsame p rfl
  refine guarded_rule changesEntitled_fail fun replace _ => ?_
  cases segmentIdListOf (body.get "segments") with
  | none => exact changesEntitled_fail _
  | some segments =>
      dsimp only
      split_ifs
      · refine stored_rule changesEntitled_fail fun s' peer hok => ?_
        exact changesEntitled_own (K.reportsSegments _ _ _ _ _).toConfined hacts hok rfl
      · exact changesEntitled_fail _

theorem changesEntitled_heartbeat (hadmin : c.hasAdminAccess = false) (b : BroadcastId)
    (p : PeerId) (body : JsonObject) :
    ChangesEntitled K api s r c (heartbeat T s r c b p body) := by
  refine guarded_rule changesEntitled_fail fun id hid => ?_
  obtain ⟨hacts, hsame⟩ := requirePeerSession_ok hadmin hid
  obtain rfl := hsame p rfl
  refine guarded_rule changesEntitled_fail fun heartbeat _ => ?_
  refine stored_rule changesEntitled_fail fun s' peer hok => ?_
  exact changesEntitled_own (K.heartbeats _ _ _ _).toConfined hacts hok rfl

theorem changesEntitled_reportStats (hadmin : c.hasAdminAccess = false) (b : BroadcastId)
    (p : PeerId) (body : JsonObject) :
    ChangesEntitled K api s r c (reportStats T s r c b p body) := by
  refine guarded_rule changesEntitled_fail fun id hid => ?_
  obtain ⟨hacts, hsame⟩ := requirePeerSession_ok hadmin hid
  obtain rfl := hsame p rfl
  refine guarded_rule changesEntitled_fail fun stats _ => ?_
  refine stored_rule changesEntitled_fail fun s' peer hok => ?_
  exact changesEntitled_own (K.reportsStats _ _ _ _).toConfined hacts hok rfl

theorem changesEntitled_leavePeer (hadmin : c.hasAdminAccess = false) (b : BroadcastId)
    (p : PeerId) : ChangesEntitled K api s r c (leavePeer T s c b p) := by
  refine guarded_rule changesEntitled_fail fun id hid => ?_
  obtain ⟨hacts, hsame⟩ := requirePeerSession_ok hadmin hid
  obtain rfl := hsame p rfl
  refine stored_rule changesEntitled_fail fun s' peer hok => ?_
  exact changesEntitled_own (K.leaves _ _).toConfined hacts hok rfl

/-- Another peer is changed only by lowering its quality. -/
theorem changesEntitled_reportFailure (hadmin : c.hasAdminAccess = false)
    {encodedBroadcast encodedPeer : String} {b : BroadcastId} {p : PeerId} {body : JsonObject}
    (hroute : r.route = .reportFailure encodedBroadcast encodedPeer)
    (hbroadcast : decodedPathComponent encodedBroadcast = .ok b)
    (hpeer : decodedPathComponent encodedPeer = .ok p) (hbody : readJson r.body = .ok body) :
    ChangesEntitled K api s r c (reportFailure T s r c b p body) := by
  refine guarded_rule changesEntitled_fail fun report hreport => ?_
  refine guarded_rule changesEntitled_fail fun id hid => ?_
  obtain ⟨hacts, hsame⟩ := requirePeerSession_ok hadmin hid
  obtain rfl := hsame report.reporterId rfl
  refine stored_rule changesEntitled_fail fun s' peer hok => ?_
  intro b' p' hne
  by_cases hbp : b' = b ∧ p' = p
  · obtain ⟨rfl, rfl⟩ := hbp
    exact .blamed hroute hbroadcast hpeer hbody hreport hacts (K.failureLowers hok)
  · exact absurd ((K.reportsFailure _ _ _ _).others hok hbp) hne

/-- A join changes the caller's own peer, or makes a peer that was not there. -/
theorem changesEntitled_joinPeer (hadmin : c.hasAdminAccess = false) {encoded : String}
    {b : BroadcastId} (hroute : r.route = .joinPeer encoded)
    (hbroadcast : decodedPathComponent encoded = .ok b) :
    ChangesEntitled K api s r c (joinPeer T api s r c b) := by
  refine guarded_rule changesEntitled_fail fun body hbody => ?_
  refine guarded_rule changesEntitled_fail fun join hjoin => ?_
  refine guarded_rule changesEntitled_fail fun id hpeek => ?_
  have hentitled : c.ActsAs b join.id ∨ K.record s b join.id = none := by
    have hpresent : (T.getPeer s b join.id).isSome = (K.record s b join.id).isSome := by
      rw [K.getPeer, Option.isSome_map]
    split_ifs at hpeek with hpeer
    · obtain ⟨hacts, hsame⟩ := requirePeerSession_ok hadmin hpeek
      obtain rfl := hsame join.id rfl
      exact Or.inl hacts
    · rw [hpresent, Bool.not_eq_true, Option.isSome_eq_false_iff, Option.isNone_iff_eq_none]
        at hpeer
      exact Or.inr hpeer
  -- Whatever follows the store's answer, the store is the one it returned.
  have hstore : ∀ s' peer already,
      T.joinPeerDetailed s r.handledAt b join ⟨some api.maxPeersPerBroadcast⟩
        = .ok (s', peer, already) →
      ∀ o : RestOutcome σ, o.store = s' → ChangesEntitled K api s r c o := by
    intro s' peer already hok o ho b' p' hne
    rw [ho] at hne
    by_cases hbp : b' = b ∧ p' = join.id
    · obtain ⟨rfl, rfl⟩ := hbp
      rcases hentitled with hacts | habsent
      · exact .own hacts
      · exact .created hroute hbroadcast hbody hjoin rfl habsent
    · exact absurd ((K.joins _ _ _ _).others hok hbp) hne
  unfold joinChecked
  cases hjoined : T.joinPeerDetailed s r.handledAt b join ⟨some api.maxPeersPerBroadcast⟩ with
  | error e => exact changesEntitled_fail _
  | ok result =>
      obtain ⟨s', peer, already⟩ := result
      refine guarded_rule (fun e => hstore s' peer already hjoined _ rfl) fun _ _ => ?_
      exact hstore s' peer already hjoined _ rfl

theorem changesEntitled_listPeers (b : BroadcastId) :
    ChangesEntitled K api s r c (listPeers T s r c b) := by
  refine guarded_rule changesEntitled_fail fun id _ => ?_
  cases visiblePeers T s r c b id r.segment with
  | error e => exact changesEntitled_fail _
  | ok peers => exact changesEntitled_same rfl

theorem changesEntitled_getBroadcast (b : BroadcastId) :
    ChangesEntitled K api s r c (getBroadcast T s r c b) := by
  refine guarded_rule changesEntitled_fail fun id _ => ?_
  cases T.getBroadcast s b with
  | error e => exact changesEntitled_fail _
  | ok broadcast =>
      dsimp only
      cases visiblePeers T s r c b id none with
      | error e => exact changesEntitled_fail _
      | ok peers => exact changesEntitled_same rfl

/-- A route for administrators is closed. -/
theorem changesEntitled_admin {next : Unit → RestOutcome σ} (hadmin : c.hasAdminAccess = false) :
    ChangesEntitled K api s r c (guarded s (requireAdminAccess c) next) := by
  rw [requireAdminAccess_error hadmin]
  exact changesEntitled_fail _

/-- **Without the key**, every changed record is one the caller is entitled to change. -/
theorem changesEntitled_handle (hadmin : (api.credentials r).hasAdminAccess = false) :
    ChangesEntitled K api s r (api.credentials r) (handle T api s r) := by
  refine guarded_rule changesEntitled_fail fun _ _ => ?_
  cases hroute : r.route with
  | preflight => exact changesEntitled_same rfl
  | health => exact changesEntitled_same rfl
  | metrics => exact changesEntitled_admin hadmin
  | dashboard => exact changesEntitled_admin hadmin
  | globalStats => exact changesEntitled_admin hadmin
  | statsEvents => exact changesEntitled_admin hadmin
  | registerBroadcast => exact changesEntitled_admin hadmin
  | listBroadcasts => exact changesEntitled_admin hadmin
  | broadcastStats encoded => exact changesEntitled_admin hadmin
  | reportSegments encodedBroadcast encodedPeer =>
      refine guarded_rule changesEntitled_fail fun b _ => ?_
      refine guarded_rule changesEntitled_fail fun p _ => ?_
      refine guarded_rule changesEntitled_fail fun body _ => ?_
      exact changesEntitled_reportSegments hadmin b p body
  | heartbeat encodedBroadcast encodedPeer =>
      refine guarded_rule changesEntitled_fail fun b _ => ?_
      refine guarded_rule changesEntitled_fail fun p _ => ?_
      refine guarded_rule changesEntitled_fail fun body _ => ?_
      exact changesEntitled_heartbeat hadmin b p body
  | reportStats encodedBroadcast encodedPeer =>
      refine guarded_rule changesEntitled_fail fun b _ => ?_
      refine guarded_rule changesEntitled_fail fun p _ => ?_
      refine guarded_rule changesEntitled_fail fun body _ => ?_
      exact changesEntitled_reportStats hadmin b p body
  | reportFailure encodedBroadcast encodedPeer =>
      refine guarded_rule changesEntitled_fail fun b hb => ?_
      refine guarded_rule changesEntitled_fail fun p hp => ?_
      refine guarded_rule changesEntitled_fail fun body hbody => ?_
      exact changesEntitled_reportFailure hadmin hroute hb hp hbody
  | otherAction encodedBroadcast encodedPeer =>
      refine guarded_rule changesEntitled_fail fun b _ => ?_
      refine guarded_rule changesEntitled_fail fun p _ => ?_
      exact guarded_rule changesEntitled_fail fun body _ => changesEntitled_fail _
  | joinPeer encoded =>
      exact guarded_rule changesEntitled_fail fun b hb => changesEntitled_joinPeer hadmin hroute hb
  | listPeers encoded =>
      exact guarded_rule changesEntitled_fail fun b _ => changesEntitled_listPeers b
  | leavePeer encodedBroadcast encodedPeer =>
      refine guarded_rule changesEntitled_fail fun b _ => ?_
      exact guarded_rule changesEntitled_fail fun p _ => changesEntitled_leavePeer hadmin b p
  | getBroadcast encoded =>
      exact guarded_rule changesEntitled_fail fun b _ => changesEntitled_getBroadcast b
  | unregisterBroadcast encoded =>
      exact guarded_rule changesEntitled_fail fun b _ => changesEntitled_admin hadmin
  | otherResource encoded =>
      exact guarded_rule changesEntitled_fail fun b _ => changesEntitled_fail _
  | notFound => exact changesEntitled_fail _

end Changes

/-! ## What is read -/

section Reads

variable {σ α : Type} {T : TrackerStoreBackend σ} (K : T.KeepsApart) {api : RestApi} {s s' : σ}
  {r : RestRequest} {c : Credentials} (b : BroadcastId)

/-- Two outcomes from stores that share a broadcast: they agree, and the first
changes and publishes nothing of any other broadcast. -/
structure KeepsTo (s : σ) (o o' : RestOutcome σ) : Prop where
  answer : o.answer = o'.answer
  granted : o.granted = o'.granted
  events : o.events = o'.events
  store : K.SameOf b o.store o'.store
  apart : ∀ b', b' ≠ b → K.SameOf b' o.store s
  about : ∀ e ∈ o.events, e.broadcastId? = some b

variable {K b}

theorem keepsTo_answer (hsame : K.SameOf b s s') (answer : RestAnswer) :
    KeepsTo K b s { store := s, answer } { store := s', answer } :=
  ⟨rfl, rfl, rfl, hsame, fun b' _ => K.refl b' s, fun _ he => absurd he List.not_mem_nil⟩

/-- The same check on both sides, wherever its error leaves the stores. -/
theorem keepsTo_check {t t' : σ} {check : Except RequestError α}
    {next next' : α → RestOutcome σ} (hfail : ∀ e, KeepsTo K b s (fail t e) (fail t' e))
    (hnext : ∀ a, KeepsTo K b s (next a) (next' a)) :
    KeepsTo K b s (guarded t check next) (guarded t' check next') := by
  unfold guarded
  cases check with
  | error e => exact hfail e
  | ok a => exact hnext a

theorem keepsTo_guarded (hsame : K.SameOf b s s') {check : Except RequestError α}
    {next next' : α → RestOutcome σ} (hnext : ∀ a, KeepsTo K b s (next a) (next' a)) :
    KeepsTo K b s (guarded s check next) (guarded s' check next') :=
  keepsTo_check (fun _ => keepsTo_answer hsame _) hnext

/-- The path names the broadcast. -/
theorem keepsTo_decoded {encoded : String} (hb : decodedPathComponent encoded = .ok b)
    {next next' : BroadcastId → RestOutcome σ} (hnext : KeepsTo K b s (next b) (next' b)) :
    KeepsTo K b s (guarded s (decodedPathComponent encoded) next)
      (guarded s' (decodedPathComponent encoded) next') := by
  unfold guarded
  rw [hb]
  exact hnext

theorem keepsTo_admin (hsame : K.SameOf b s s') (hadmin : c.hasAdminAccess = false)
    {next next' : Unit → RestOutcome σ} :
    KeepsTo K b s (guarded s (requireAdminAccess c) next)
      (guarded s' (requireAdminAccess c) next') := by
  rw [requireAdminAccess_error hadmin]
  exact keepsTo_answer hsame _

/-- A confined operation, and an event about its broadcast. -/
theorem keepsTo_stored (hplain : K.toStoreParts.PlainPeers s) (hsame : K.SameOf b s s')
    {p : PeerId} {f : σ → Except StoreError (σ × α)} (hf : K.toStoreParts.Confined b p f)
    {answer : α → RestAnswer} {event : RestEvent} (hevent : event.broadcastId? = some b) :
    KeepsTo K b s
      (stored s (f s) fun s' a => { store := s', answer := answer a, events := [event] })
      (stored s' (f s') fun s' a => { store := s', answer := answer a, events := [event] }) := by
  have halike := hf.alike hplain hsame
  have hapart := fun t a b' => @hf.apart s t a b' hplain
  revert halike hapart
  generalize f s = result
  generalize f s' = result'
  intro halike hapart
  cases halike with
  | refused e => exact keepsTo_answer hsame _
  | @done t t' hstore a =>
      refine ⟨rfl, rfl, rfl, hstore, fun b' hb => hapart t a b' rfl hb, fun e he => ?_⟩
      rw [List.mem_singleton.mp he]
      exact hevent

theorem visiblePeers_congr (hsame : K.SameOf b s s') (p : PeerId) (segment : Option SegmentId) :
    visiblePeers T s r c b p segment = visiblePeers T s' r c b p segment := by
  have hpeer : ∀ id, T.getPeer s b id = T.getPeer s' b id := by
    intro id
    rw [K.getPeer, K.getPeer, K.record_congr hsame]
  unfold visiblePeers
  rw [K.listPeers_congr hsame]
  simp only [hpeer]

theorem keepsTo_joinPeer (hplain : K.toStoreParts.PlainPeers s) (hsame : K.SameOf b s s') :
    KeepsTo K b s (joinPeer T api s r c b) (joinPeer T api s' r c b) := by
  refine keepsTo_guarded hsame fun body => ?_
  refine keepsTo_guarded hsame fun join => ?_
  have hpeer : T.getPeer s b join.id = T.getPeer s' b join.id := by
    rw [K.getPeer, K.getPeer, K.record_congr hsame]
  rw [hpeer]
  refine keepsTo_guarded hsame fun id => ?_
  have hjoins := K.joins r.handledAt b join ⟨some api.maxPeersPerBroadcast⟩
  have halike := hjoins.alike hplain hsame
  have hapart := fun t a b' => @hjoins.apart s t a b' hplain
  unfold joinChecked
  revert halike hapart
  generalize T.joinPeerDetailed s r.handledAt b join _ = result
  generalize T.joinPeerDetailed s' r.handledAt b join _ = result'
  intro halike hapart
  cases halike with
  | refused e => exact keepsTo_answer hsame _
  | @done t t' hstore joined =>
      obtain ⟨peer, already⟩ := joined
      have hothers : ∀ b', b' ≠ b → K.SameOf b' t s := fun b' hb => hapart t _ b' rfl hb
      refine keepsTo_check (fun e => ?_) fun id => ?_
      · exact ⟨rfl, rfl, rfl, hstore, hothers, fun _ he => absurd he List.not_mem_nil⟩
      · refine ⟨rfl, rfl, rfl, hstore, hothers, fun e he => ?_⟩
        obtain rfl := List.mem_singleton.mp he
        cases already <;> rfl

theorem keepsTo_listPeers (hsame : K.SameOf b s s') :
    KeepsTo K b s (listPeers T s r c b) (listPeers T s' r c b) := by
  refine keepsTo_guarded hsame fun id => ?_
  rw [visiblePeers_congr hsame]
  cases visiblePeers T s' r c b id r.segment with
  | error e => exact keepsTo_answer hsame _
  | ok peers => exact keepsTo_answer hsame _

theorem keepsTo_getBroadcast (hsame : K.SameOf b s s') :
    KeepsTo K b s (getBroadcast T s r c b) (getBroadcast T s' r c b) := by
  refine keepsTo_guarded hsame fun id => ?_
  rw [K.getBroadcast_congr hsame, visiblePeers_congr hsame]
  cases T.getBroadcast s' b with
  | error e => exact keepsTo_answer hsame _
  | ok broadcast =>
      dsimp only
      cases visiblePeers T s' r c b id none with
      | error e => exact keepsTo_answer hsame _
      | ok peers => exact keepsTo_answer hsame _

/-- A peer action of one broadcast. -/
theorem keepsTo_peerAction (hsame : K.SameOf b s s') {encodedBroadcast encodedPeer : String}
    (hbroadcast : decodedPathComponent encodedBroadcast = .ok b)
    {action action' : BroadcastId → PeerId → JsonObject → RestOutcome σ}
    (haction : ∀ p body, KeepsTo K b s (action b p body) (action' b p body)) :
    KeepsTo K b s (peerAction s r encodedBroadcast encodedPeer action)
      (peerAction s' r encodedBroadcast encodedPeer action') := by
  refine keepsTo_decoded hbroadcast ?_
  refine keepsTo_guarded hsame fun p => ?_
  exact keepsTo_guarded hsame fun body => haction p body

/-- **Without the key**, a request about a broadcast keeps to it. -/
theorem keepsTo_handle (hplain : K.toStoreParts.PlainPeers s) (hsame : K.SameOf b s s')
    (hadmin : (api.credentials r).hasAdminAccess = false) (hroute : r.route.Concerns b) :
    KeepsTo K b s (handle T api s r) (handle T api s' r) := by
  obtain ⟨encoded, hencoded, hb⟩ := hroute
  refine keepsTo_guarded hsame fun _ => ?_
  cases hroute : r.route with
  | broadcastStats encodedBroadcast =>
      exact keepsTo_admin hsame hadmin
  | reportSegments encodedBroadcast encodedPeer =>
      rw [hroute] at hencoded
      obtain rfl := Option.some.inj hencoded
      refine keepsTo_peerAction hsame hb fun p body => ?_
      refine keepsTo_guarded hsame fun id => ?_
      refine keepsTo_guarded hsame fun replace => ?_
      cases segmentIdListOf (body.get "segments") with
      | none => exact keepsTo_answer hsame _
      | some segments =>
          dsimp only
          split_ifs
          · exact keepsTo_stored hplain hsame (K.reportsSegments _ _ _ _ _).toConfined rfl
          · exact keepsTo_answer hsame _
  | heartbeat encodedBroadcast encodedPeer =>
      rw [hroute] at hencoded
      obtain rfl := Option.some.inj hencoded
      refine keepsTo_peerAction hsame hb fun p body => ?_
      refine keepsTo_guarded hsame fun id => ?_
      refine keepsTo_guarded hsame fun heartbeat => ?_
      exact keepsTo_stored hplain hsame (K.heartbeats _ _ _ _).toConfined rfl
  | reportStats encodedBroadcast encodedPeer =>
      rw [hroute] at hencoded
      obtain rfl := Option.some.inj hencoded
      refine keepsTo_peerAction hsame hb fun p body => ?_
      refine keepsTo_guarded hsame fun id => ?_
      refine keepsTo_guarded hsame fun stats => ?_
      exact keepsTo_stored hplain hsame (K.reportsStats _ _ _ _).toConfined rfl
  | reportFailure encodedBroadcast encodedPeer =>
      rw [hroute] at hencoded
      obtain rfl := Option.some.inj hencoded
      refine keepsTo_peerAction hsame hb fun p body => ?_
      refine keepsTo_guarded hsame fun report => ?_
      refine keepsTo_guarded hsame fun id => ?_
      exact keepsTo_stored hplain hsame (K.reportsFailure _ _ _ _).toConfined rfl
  | otherAction encodedBroadcast encodedPeer =>
      rw [hroute] at hencoded
      obtain rfl := Option.some.inj hencoded
      exact keepsTo_peerAction hsame hb fun p body => keepsTo_answer hsame _
  | joinPeer encodedBroadcast =>
      rw [hroute] at hencoded
      obtain rfl := Option.some.inj hencoded
      exact keepsTo_decoded hb (keepsTo_joinPeer hplain hsame)
  | listPeers encodedBroadcast =>
      rw [hroute] at hencoded
      obtain rfl := Option.some.inj hencoded
      exact keepsTo_decoded hb (keepsTo_listPeers hsame)
  | leavePeer encodedBroadcast encodedPeer =>
      rw [hroute] at hencoded
      obtain rfl := Option.some.inj hencoded
      refine keepsTo_decoded hb ?_
      refine keepsTo_guarded hsame fun p => ?_
      refine keepsTo_guarded hsame fun id => ?_
      exact keepsTo_stored hplain hsame (K.leaves _ _).toConfined rfl
  | getBroadcast encodedBroadcast =>
      rw [hroute] at hencoded
      obtain rfl := Option.some.inj hencoded
      exact keepsTo_decoded hb (keepsTo_getBroadcast hsame)
  | unregisterBroadcast encodedBroadcast =>
      rw [hroute] at hencoded
      obtain rfl := Option.some.inj hencoded
      exact keepsTo_decoded hb (keepsTo_admin hsame hadmin)
  | otherResource encodedBroadcast =>
      exact keepsTo_guarded hsame fun b => keepsTo_answer hsame _
  | _ =>
      rw [hroute] at hencoded
      exact absurd hencoded (by simp [Route.broadcastId?])

end Reads

/-! ## A token of another broadcast -/

section Anonymous

variable {σ α : Type} {T : TrackerStoreBackend σ} {api : RestApi} {s : σ} {r : RestRequest}
  {c c' : Credentials} {b : BroadcastId}

/-- The same outcome, up to what is said of a missing key. -/
structure SameUpToReason (o o' : RestOutcome σ) : Prop where
  store : o.store = o'.store
  answer : o.answer = o'.answer ∨
    o.answer = .error invalidApiKey ∧ o'.answer = .error missingApiKey
  granted : o.granted = o'.granted
  events : o.events = o'.events

theorem SameUpToReason.refl (o : RestOutcome σ) : SameUpToReason o o := ⟨rfl, Or.inl rfl, rfl, rfl⟩

theorem sameUpToReason_guarded {check : Except RequestError α} {next next' : α → RestOutcome σ}
    (hnext : ∀ a, check = .ok a → SameUpToReason (next a) (next' a)) :
    SameUpToReason (guarded s check next) (guarded s check next') := by
  unfold guarded
  cases hcheck : check with
  | error e => exact .refl _
  | ok a => exact hnext a hcheck

theorem sameUpToReason_admin (hadmin : c.hasAdminAccess = false)
    (hadmin' : c'.hasAdminAccess = false) (habsent : c.absent = true → c'.absent = true)
    {next next' : Unit → RestOutcome σ} :
    SameUpToReason (guarded s (requireAdminAccess c) next)
      (guarded s (requireAdminAccess c') next') := by
  rw [requireAdminAccess_error hadmin, requireAdminAccess_error hadmin']
  refine ⟨rfl, ?_, rfl, rfl⟩
  show RestAnswer.error _ = RestAnswer.error _ ∨ RestAnswer.error _ = _ ∧ RestAnswer.error _ = _
  by_cases hc : c.absent = true
  · rw [if_pos hc, if_pos (habsent hc)]
    exact Or.inl rfl
  · rw [if_neg hc]
    by_cases hc' : c'.absent = true
    · rw [if_pos hc']
      exact Or.inr ⟨rfl, rfl⟩
    · rw [if_neg hc']
      exact Or.inl rfl

/-- Neither caller has a session of the broadcast. -/
theorem sameUpToReason_session (hadmin : c.hasAdminAccess = false)
    (hadmin' : c'.hasAdminAccess = false) (hother : ∀ p, ¬ c.ActsAs b p)
    (hother' : ∀ p, ¬ c'.ActsAs b p) {p? : Option PeerId} {next next' : PeerId → RestOutcome σ} :
    SameUpToReason (guarded s (requirePeerSession c b p?) next)
      (guarded s (requirePeerSession c' b p?) next') := by
  rw [requirePeerSession_error hadmin hother, requirePeerSession_error hadmin' hother']
  exact .refl _

theorem joinPeer_eq (hadmin : c.hasAdminAccess = false) (hadmin' : c'.hasAdminAccess = false)
    (hother : ∀ p, ¬ c.ActsAs b p) (hother' : ∀ p, ¬ c'.ActsAs b p) :
    joinPeer T api s r c b = joinPeer T api s r.anonymous c' b := by
  unfold joinPeer joinChecked
  simp only [requirePeerSession_error hadmin hother, requirePeerSession_error hadmin' hother']
  rfl

theorem credentials_anonymous (hadmin : (api.credentials r).hasAdminAccess = false) :
    (api.credentials r.anonymous).hasAdminAccess = false ∧
      (api.credentials r.anonymous).session = none ∧
      ((api.credentials r).absent = true → (api.credentials r.anonymous).absent = true) := by
  refine ⟨?_, rfl, ?_⟩
  · have hkey : (api.apiKey.isNone || (r.providedApiKey.isSome && r.providedApiKey = api.apiKey) ||
        ((bearerToken r.authorization).isSome && bearerToken r.authorization = api.apiKey))
          = false := hadmin
    show (api.apiKey.isNone || (r.providedApiKey.isSome && r.providedApiKey = api.apiKey) || false)
      = false
    rw [Bool.or_eq_false_iff] at hkey
    rw [Bool.or_false]
    exact hkey.1
  · intro habsent
    have hboth : (r.providedApiKey.isNone && (bearerToken r.authorization).isNone) = true := habsent
    show (r.providedApiKey.isNone && true) = true
    rw [Bool.and_true]
    exact (Bool.and_eq_true_iff.mp hboth).1

/-- **A token of another broadcast is no token.** -/
theorem handle_anonymous (hadmin : (api.credentials r).hasAdminAccess = false)
    (hother : ∀ b, r.route.Concerns b → ∀ p, ¬ (api.credentials r).ActsAs b p) :
    SameUpToReason (handle T api s r) (handle T api s r.anonymous) := by
  obtain ⟨hadmin', hsession, habsent⟩ := credentials_anonymous hadmin
  have hother' : ∀ b p, ¬ (api.credentials r.anonymous).ActsAs b p := by
    rintro b p ⟨session, hsome, -⟩
    rw [hsession] at hsome
    exact absurd hsome (by simp)
  refine sameUpToReason_guarded fun _ _ => ?_
  have hroute' : r.anonymous.route = r.route := rfl
  rw [hroute']
  -- A peer action whose every check of the session fails.
  have haction : ∀ {encodedBroadcast encodedPeer : String}
      {action action' : BroadcastId → PeerId → JsonObject → RestOutcome σ},
      r.route.broadcastId? = some encodedBroadcast →
      (∀ b p body, (∀ q, ¬ (api.credentials r).ActsAs b q) →
        SameUpToReason (action b p body) (action' b p body)) →
      SameUpToReason (peerAction s r encodedBroadcast encodedPeer action)
        (peerAction s r.anonymous encodedBroadcast encodedPeer action') := by
    intro encodedBroadcast encodedPeer action action' hencoded hsame
    refine sameUpToReason_guarded fun b hb => ?_
    refine sameUpToReason_guarded fun p _ => ?_
    exact sameUpToReason_guarded fun body _ => hsame b p body (hother b ⟨_, hencoded, hb⟩)
  cases hroute : r.route with
  | preflight => exact .refl _
  | health => exact .refl _
  | metrics => exact sameUpToReason_admin hadmin hadmin' habsent
  | dashboard => exact sameUpToReason_admin hadmin hadmin' habsent
  | globalStats => exact sameUpToReason_admin hadmin hadmin' habsent
  | statsEvents => exact sameUpToReason_admin hadmin hadmin' habsent
  | registerBroadcast => exact sameUpToReason_admin hadmin hadmin' habsent
  | listBroadcasts => exact sameUpToReason_admin hadmin hadmin' habsent
  | broadcastStats encoded => exact sameUpToReason_admin hadmin hadmin' habsent
  | reportSegments encodedBroadcast encodedPeer =>
      refine haction (by rw [hroute]; rfl) fun b p body hb => ?_
      exact sameUpToReason_session hadmin hadmin' hb (hother' b)
  | heartbeat encodedBroadcast encodedPeer =>
      refine haction (by rw [hroute]; rfl) fun b p body hb => ?_
      exact sameUpToReason_session hadmin hadmin' hb (hother' b)
  | reportStats encodedBroadcast encodedPeer =>
      refine haction (by rw [hroute]; rfl) fun b p body hb => ?_
      exact sameUpToReason_session hadmin hadmin' hb (hother' b)
  | reportFailure encodedBroadcast encodedPeer =>
      refine haction (by rw [hroute]; rfl) fun b p body hb => ?_
      refine sameUpToReason_guarded fun report _ => ?_
      exact sameUpToReason_session hadmin hadmin' hb (hother' b)
  | otherAction encodedBroadcast encodedPeer =>
      exact haction (by rw [hroute]; rfl) fun b p body _ => .refl _
  | joinPeer encoded =>
      refine sameUpToReason_guarded fun b hb => ?_
      have hconcerns : r.route.Concerns b := ⟨encoded, by rw [hroute]; rfl, hb⟩
      rw [joinPeer_eq hadmin hadmin' (hother b hconcerns) (hother' b)]
      exact .refl _
  | listPeers encoded =>
      refine sameUpToReason_guarded fun b hb => ?_
      have hconcerns : r.route.Concerns b := ⟨encoded, by rw [hroute]; rfl, hb⟩
      exact sameUpToReason_session hadmin hadmin' (hother b hconcerns) (hother' b)
  | leavePeer encodedBroadcast encodedPeer =>
      refine sameUpToReason_guarded fun b hb => ?_
      refine sameUpToReason_guarded fun p _ => ?_
      have hconcerns : r.route.Concerns b := ⟨encodedBroadcast, by rw [hroute]; rfl, hb⟩
      exact sameUpToReason_session hadmin hadmin' (hother b hconcerns) (hother' b)
  | getBroadcast encoded =>
      refine sameUpToReason_guarded fun b hb => ?_
      have hconcerns : r.route.Concerns b := ⟨encoded, by rw [hroute]; rfl, hb⟩
      exact sameUpToReason_session hadmin hadmin' (hother b hconcerns) (hother' b)
  | unregisterBroadcast encoded =>
      refine sameUpToReason_guarded fun b _ => ?_
      exact sameUpToReason_admin hadmin hadmin' habsent
  | otherResource encoded => exact .refl _
  | notFound => exact .refl _

end Anonymous

end RestApi

end OpenStreamGrid
