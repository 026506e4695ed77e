import OpenStreamGrid.Tracker.BroadcastParts

/-!
# Both stores keep broadcasts apart

The in-memory store holds a broadcast's part under one key. In the SQLite store
it is spread over the rows of three tables, and what a statement does to the
rows of some keys is what it does to the table restricted to them.
-/

namespace OpenStreamGrid

theorem clampUnitInterval_sub_le (x : UnitInterval) {penalty : ℚ} (h : 0 ≤ penalty) :
    clampUnitInterval (x.1 - penalty) ≤ x := by
  have hmax : max 0 (x.1 - penalty) ≤ x.1 := max_le x.2.1 (sub_le_self x.1 h)
  rw [← Subtype.coe_le_coe]
  exact le_trans (min_le_right 1 _) hmax

/-- A confirmed failure raises nothing. -/
theorem penalizePeerQuality_le (trustScore successRate : UnitInterval) (reason : FailureReason) :
    (penalizePeerQuality trustScore successRate reason).1 ≤ trustScore ∧
      (penalizePeerQuality trustScore successRate reason).2 ≤ successRate := by
  have hpenalty : ∀ penalty : ℚ, 0 ≤ penalty →
      clampUnitInterval (trustScore.1 - penalty) ≤ trustScore ∧
        clampUnitInterval (successRate.1 - penalty * SUCCESS_RATE_PENALTY_FACTOR)
          ≤ successRate := by
    intro penalty h
    have hfactor : 0 ≤ SUCCESS_RATE_PENALTY_FACTOR := by decide +kernel
    exact ⟨clampUnitInterval_sub_le _ h, clampUnitInterval_sub_le _ (mul_nonneg h hfactor)⟩
  have hconnection : 0 ≤ CONNECTION_FAILURE_PENALTY := by decide +kernel
  have hintegrity : 0 ≤ INTEGRITY_FAILURE_PENALTY := by decide +kernel
  cases reason with
  | integrity => exact hpenalty _ hintegrity
  | connection => exact hpenalty _ hconnection
  | timeout => exact hpenalty _ hconnection
  | http => exact hpenalty _ hconnection

/-! ## The in-memory store -/

namespace TrackerStore

/-- Two stores hold the same of a broadcast. -/
structure SameOf (b : BroadcastId) (s s' : TrackerStore) : Prop where
  broadcast : s.broadcasts.get? b = s'.broadcasts.get? b
  failureConsensus : s.failureConsensus.SameOn b s'.failureConsensus
  maxSegmentsPerPeer : s.maxSegmentsPerPeer = s'.maxSegmentsPerPeer

def parts : StoreParts TrackerStore where
  record s b p := (s.peerState? b p).map fun peerState => ⟨peerState.peer, peerState.stats⟩
  SameOf := SameOf

namespace SameOf

variable {b : BroadcastId} {s s' : TrackerStore}

theorem refl (b : BroadcastId) (s : TrackerStore) : SameOf b s s := ⟨rfl, .refl _, rfl⟩

theorem setPeer (h : SameOf b s s') (state : BroadcastState) (p : PeerId) (new : PeerState) :
    SameOf b (s.setPeer b state p new) (s'.setPeer b state p new) := by
  refine ⟨?_, h.failureConsensus, h.maxSegmentsPerPeer⟩
  rw [setPeer_broadcasts_get?, setPeer_broadcasts_get?, if_pos rfl, if_pos rfl]

theorem setPeer_apart {b' : BroadcastId} (hb : b' ≠ b) (s : TrackerStore) (state : BroadcastState)
    (p : PeerId) (new : PeerState) : SameOf b' (s.setPeer b state p new) s := by
  refine ⟨?_, .refl _, rfl⟩
  rw [setPeer_broadcasts_get?, if_neg hb]

theorem requireBroadcast (h : SameOf b s s') : s.requireBroadcast b = s'.requireBroadcast b := by
  unfold TrackerStore.requireBroadcast
  rw [h.broadcast]

theorem requirePeer (h : SameOf b s s') (p : PeerId) : s.requirePeer b p = s'.requirePeer b p := by
  unfold TrackerStore.requirePeer
  rw [h.requireBroadcast]

theorem peerState? (h : SameOf b s s') (p : PeerId) : s.peerState? b p = s'.peerState? b p := by
  unfold TrackerStore.peerState?
  rw [h.broadcast]

/-- The same change to a required peer is the same change of both parts. -/
theorem modifyPeer (h : SameOf b s s') (p : PeerId) (f : PeerState → PeerState) :
    Alike (SameOf b) (s.modifyPeer b p f) (s'.modifyPeer b p f) := by
  unfold TrackerStore.modifyPeer
  rw [h.requirePeer p]
  cases s'.requirePeer b p with
  | error e => exact .refused e
  | ok found => exact .done (h.setPeer found.1 p _) _

end SameOf

theorem record_setPeer {s : TrackerStore} {b : BroadcastId} {state : BroadcastState}
    (hs : s.broadcasts.get? b = some state) (p : PeerId) (new : PeerState) {b' : BroadcastId}
    {p' : PeerId} (hne : ¬ (b' = b ∧ p' = p)) :
    parts.record (s.setPeer b state p new) b' p' = parts.record s b' p' := by
  show ((s.setPeer b state p new).peerState? b' p').map _ = _
  rw [peerState?_setPeer hs, if_neg hne]
  rfl

/-- A change of a required peer keeps to it, where equal limits change it alike. -/
theorem confined_modifyPeer (b : BroadcastId) (p : PeerId)
    {f : TrackerStore → PeerState → PeerState}
    (hf : ∀ s s', s.maxSegmentsPerPeer = s'.maxSegmentsPerPeer → f s = f s') :
    parts.ConfinedReport b p fun s => s.modifyPeer b p (f s) where
  alike := by
    intro s s' _ hsame
    have hlimit : f s = f s' := hf s s' hsame.maxSegmentsPerPeer
    show Alike (SameOf b) (s.modifyPeer b p (f s)) (s'.modifyPeer b p (f s'))
    rw [hlimit]
    exact hsame.modifyPeer p (f s')
  apart := by
    intro s s' peer b' _ hok hb
    obtain ⟨state, old, hs, hp, rfl, -⟩ := modifyPeer_ok.mp hok
    exact .setPeer_apart hb s state p _
  others := by
    intro s s' peer b' p' hok hne
    obtain ⟨state, old, hs, hp, rfl, -⟩ := modifyPeer_ok.mp hok
    exact record_setPeer hs p _ hne
  present := by
    intro s s' peer hok
    obtain ⟨old, hold, -, -⟩ := modifyPeer_updated hok
    show ((s.peerState? b p).map _).isSome
    rw [hold]
    rfl

theorem confined_join (t : Timestamp) (b : BroadcastId) (request : PeerJoinRequest)
    (options : JoinPeerOptions) :
    parts.Confined b request.id fun s => s.joinPeerDetailed t b request options where
  alike := by
    intro s s' _ hsame
    have hbroadcast : SameOf b s s' := hsame
    show Alike (SameOf b) (s.joinPeerDetailed t b request options)
      (s'.joinPeerDetailed t b request options)
    unfold joinPeerDetailed
    rw [hbroadcast.requireBroadcast]
    cases s'.requireBroadcast b with
    | error e => exact .refused e
    | ok state =>
        dsimp only
        split_ifs with hlimit
        · exact .refused _
        · exact .done (hbroadcast.setPeer state request.id _) _
  apart := by
    rintro s s' ⟨peer, already⟩ b' _ hok hb
    obtain ⟨state, hs, -, -, -, rfl⟩ := joinPeerDetailed_ok.mp hok
    exact .setPeer_apart hb s state request.id _
  others := by
    rintro s s' ⟨peer, already⟩ b' p' hok hne
    obtain ⟨state, hs, -, -, -, rfl⟩ := joinPeerDetailed_ok.mp hok
    exact record_setPeer hs request.id _ hne

theorem confined_leave (b : BroadcastId) (p : PeerId) :
    parts.ConfinedReport b p fun s => (s.leavePeer b p).map (·, ()) where
  alike := by
    intro s s' _ hsame
    have hbroadcast : SameOf b s s' := hsame
    show Alike (SameOf b) ((s.leavePeer b p).map (·, ())) ((s'.leavePeer b p).map (·, ()))
    unfold leavePeer retirePeer
    rw [hbroadcast.requirePeer p]
    cases s'.requirePeer b p with
    | error e => exact .refused e
    | ok found =>
        refine .done ⟨?_, hbroadcast.failureConsensus, hbroadcast.maxSegmentsPerPeer⟩ ()
        show (s.broadcasts.set b _).get? b = (s'.broadcasts.set b _).get? b
        rw [OrderedMap.get?_set, OrderedMap.get?_set, if_pos rfl, if_pos rfl]
  apart := by
    intro s s' a b' _ hok hb
    obtain ⟨s₁, hleft, hs₁⟩ := StoreParts.map_eq_ok hok
    obtain ⟨hp, rfl⟩ := leavePeer_ok.mp hleft
    obtain ⟨peerState, hpeer⟩ := Option.isSome_iff_exists.mp hp
    obtain ⟨state, hs, hp⟩ := peerState?_eq_some.mp hpeer
    obtain rfl : s.retirePeer b p = s' := hs₁
    rw [retirePeer_eq hs hp]
    refine ⟨?_, .refl _, rfl⟩
    show (s.broadcasts.set b _).get? b' = _
    rw [OrderedMap.get?_set, if_neg hb]
  others := by
    intro s s' a b' p' hok hne
    obtain ⟨s₁, hleft, rfl⟩ := StoreParts.map_eq_ok hok
    obtain ⟨-, rfl⟩ := leavePeer_ok.mp hleft
    show ((s.retirePeer b p).peerState? b' p').map _ = _
    rw [peerState?_retirePeer, if_neg hne]
    rfl
  present := by
    intro s s' a hok
    obtain ⟨s₁, hleft, -⟩ := StoreParts.map_eq_ok hok
    obtain ⟨hp, -⟩ := leavePeer_ok.mp hleft
    show ((s.peerState? b p).map _).isSome
    rw [Option.isSome_map]
    exact hp

theorem plain_of_requirePeer {s : TrackerStore} (hplain : parts.PlainPeers s) {b : BroadcastId}
    {p : PeerId} {state : BroadcastState} {peerState : PeerState}
    (h : s.requirePeer b p = .ok (state, peerState)) : PlainId p := by
  refine hplain b p ?_
  have hpeer := requirePeer_isOk_iff.mp ⟨_, h⟩
  show ((s.peerState? b p).map _).isSome
  rwa [Option.isSome_map]

/-- Everything a failure report can do: its two peers are stored, and the reported
one's quality is lowered if the report is confirmed. -/
theorem reportPeerFailure_ok {s s' : TrackerStore} {t : Timestamp} {b : BroadcastId} {p : PeerId}
    {report : PeerFailureReport} {peer : Peer}
    (hok : s.reportPeerFailure t b p report = .ok (s', peer)) :
    ∃ state old trustScore successRate, s.broadcasts.get? b = some state ∧
      state.peers.get? p = some old ∧
      s' = { s.setPeer b state p
        { old with peer := { old.peer with trustScore, successRate } } with
          failureConsensus := (s.failureConsensus.observe t b p report).1 } ∧
      trustScore ≤ old.peer.trustScore ∧ successRate ≤ old.peer.successRate := by
  unfold reportPeerFailure at hok
  cases hr : s.requirePeer b p with
  | error e =>
      rw [hr] at hok
      exact absurd hok (by simp)
  | ok found =>
      obtain ⟨state, old⟩ := found
      obtain ⟨hs, hp⟩ := requirePeer_ok.mp hr
      cases hreporter : s.requirePeer b report.reporterId with
      | error e =>
          rw [hr, hreporter] at hok
          exact absurd hok (by simp)
      | ok reporter =>
          rw [hr, hreporter] at hok
          dsimp only at hok
          split_ifs at hok
          · obtain ⟨state', old', hs', hp', rfl, -⟩ := modifyPeer_ok.mp hok
            obtain rfl : state' = state := Option.some.inj (hs'.symm.trans hs)
            obtain rfl : old' = old := Option.some.inj (hp'.symm.trans hp)
            have hlower := penalizePeerQuality_le old'.peer.trustScore old'.peer.successRate
              report.reason
            exact ⟨state', old', _, _, hs, hp, rfl, hlower.1, hlower.2⟩
          · obtain ⟨rfl, -⟩ := Prod.mk.inj (Except.ok.inj hok)
            have hset : s.setPeer b state p old = s := by
              unfold setPeer
              rw [OrderedMap.set_of_get? hp, OrderedMap.set_of_get? hs]
            refine ⟨state, old, old.peer.trustScore, old.peer.successRate, hs, hp, ?_, le_rfl,
              le_rfl⟩
            show _ = { s.setPeer b state p old with
              failureConsensus := (s.failureConsensus.observe t b p report).1 }
            rw [hset]

theorem confined_failure (t : Timestamp) (b : BroadcastId) (p : PeerId)
    (report : PeerFailureReport) :
    parts.ConfinedReport b p fun s => s.reportPeerFailure t b p report where
  alike := by
    intro s s' hplain hsame
    have hbroadcast : SameOf b s s' := hsame
    show Alike (SameOf b) (s.reportPeerFailure t b p report) (s'.reportPeerFailure t b p report)
    have hrequire := hbroadcast.requirePeer p
    unfold reportPeerFailure
    cases hr : s.requirePeer b p with
    | error e =>
        rw [← hrequire, hr]
        exact .refused e
    | ok found =>
        rw [← hrequire, hr, ← hbroadcast.requirePeer report.reporterId]
        cases s.requirePeer b report.reporterId with
        | error e => exact .refused e
        | ok reporter =>
            obtain ⟨hconfirmed, hconsensus⟩ :=
              hbroadcast.failureConsensus.observe t report
                (plain_of_requirePeer hplain hr)
            have hobserved : SameOf b
                { s with failureConsensus := (s.failureConsensus.observe t b p report).1 }
                { s' with failureConsensus := (s'.failureConsensus.observe t b p report).1 } :=
              ⟨hbroadcast.broadcast, hconsensus, hbroadcast.maxSegmentsPerPeer⟩
            dsimp only
            rw [hconfirmed]
            split_ifs
            · exact hobserved.modifyPeer p _
            · exact .done hobserved _
  apart := by
    intro s s' peer b' hplain hok hb
    obtain ⟨state, old, trustScore, successRate, hs, hp, rfl, -⟩ := reportPeerFailure_ok hok
    have hset := SameOf.setPeer_apart hb s state p
      { old with peer := { old.peer with trustScore, successRate } }
    have hplainId := plain_of_requirePeer hplain (requirePeer_ok.mpr ⟨hs, hp⟩)
    exact ⟨hset.broadcast, PeerFailureConsensus.observe_apart hplainId hb,
      hset.maxSegmentsPerPeer⟩
  others := by
    intro s s' peer b' p' hok hne
    obtain ⟨state, old, trustScore, successRate, hs, -, rfl, -⟩ := reportPeerFailure_ok hok
    exact record_setPeer hs p _ hne
  present := by
    intro s s' peer hok
    obtain ⟨state, old, trustScore, successRate, hs, hp, -⟩ := reportPeerFailure_ok hok
    show ((s.peerState? b p).map _).isSome
    rw [peerState?_eq_some.mpr ⟨state, hs, hp⟩]
    rfl

theorem failure_lowers {s s' : TrackerStore} {t : Timestamp} {b : BroadcastId} {p : PeerId}
    {report : PeerFailureReport} {peer : Peer}
    (hok : s.reportPeerFailure t b p report = .ok (s', peer)) :
    QualityLowered (parts.record s b p) (parts.record s' b p) := by
  obtain ⟨state, old, trustScore, successRate, hs, hp, rfl, htrust, hsuccess⟩ :=
    reportPeerFailure_ok hok
  refine ⟨⟨⟨old.peer, old.stats⟩, trustScore, successRate, ?_, ?_, htrust, hsuccess⟩⟩
  · show (s.peerState? b p).map _ = _
    rw [peerState?_eq_some.mpr ⟨state, hs, hp⟩]
    rfl
  · show ((s.setPeer b state p _).peerState? b p).map _ = _
    rw [peerState?_setPeer hs, if_pos ⟨rfl, rfl⟩]
    rfl

/-- **The in-memory store keeps broadcasts and peers apart.** -/
def keepsApart (maxSegmentsPerPeer : ℕ) : (backend maxSegmentsPerPeer).KeepsApart where
  toStoreParts := parts
  refl := SameOf.refl
  new_record := fun _ _ => rfl
  getPeer := by
    intro s b p
    show (s.peerState? b p).map _ = ((s.peerState? b p).map _).map _
    rw [Option.map_map]
    rfl
  record_congr := by
    intro s s' b hsame p
    show (s.peerState? b p).map _ = (s'.peerState? b p).map _
    rw [SameOf.peerState? hsame]
  getBroadcast_congr := by
    intro s s' b hsame
    show (s.requireBroadcast b).map _ = (s'.requireBroadcast b).map _
    rw [SameOf.requireBroadcast hsame]
  listPeers_congr := by
    intro s s' b hsame segment
    show (s.requireBroadcast b).map _ = (s'.requireBroadcast b).map _
    rw [SameOf.requireBroadcast hsame]
  joins := confined_join
  alreadyJoined := by
    intro s s' t b request options peer already hok
    obtain ⟨state, hs, -, -, rfl, -⟩ := joinPeerDetailed_ok.mp hok
    show _ = ((s.peerState? b request.id).map _).isSome
    rw [Option.isSome_map, TrackerStore.peerState?, hs]
    rfl
  leaves := confined_leave
  reportsSegments := fun t b p segments replace => confined_modifyPeer b p
    (f := fun s peerState =>
      { peerState with
        peer :=
          { peerState.peer with
            segments := limitInventory
              (mergedReport peerState.peer.segments segments replace) s.maxSegmentsPerPeer
            lastSeenAt := t } })
    (fun s s' h => by rw [h])
  heartbeats := fun t b p heartbeat => confined_modifyPeer b p
    (f := fun _ peerState =>
      { peerState with peer := { peerState.peer.withHeartbeat heartbeat with lastSeenAt := t } })
    (fun _ _ _ => rfl)
  reportsStats := by
    intro t b p stats
    have hreport : parts.ConfinedReport b p fun s => s.reportStats t b p stats :=
      confined_modifyPeer b p (f := fun _ peerState =>
        { peer := { peerState.peer with lastSeenAt := t }
          stats := sanitizePeerTrafficStats stats }) (fun _ _ _ => rfl)
    have hunit := hreport.map fun _ => ()
    have hsame : (fun s : TrackerStore => ((s.reportStats t b p stats).map Prod.fst).map (·, ()))
        = fun s => (s.reportStats t b p stats).map fun x => (x.1, ()) := by
      funext s
      cases s.reportStats t b p stats <;> rfl
    rw [← hsame] at hunit
    exact hunit
  reportsFailure := confined_failure
  failureLowers := failure_lowers
  registers := by
    intro s t registration b p
    show ((s.registerBroadcast t registration).1.peerState? b p).map _ = _
    rw [peerState?_registerBroadcast]
    rfl
  unregisters := by
    intro s s' id hok b p hrecord
    have hdelete : s.unregisterBroadcast id = .ok s' := hok
    unfold unregisterBroadcast at hdelete
    split_ifs at hdelete
    obtain rfl := Except.ok.inj hdelete
    have hpeer : ((s.peerState? b p).map fun peerState : PeerState =>
        (⟨peerState.peer, peerState.stats⟩ : PeerStatsSnapshot)).isSome := by
      change (((((s.broadcasts.delete id).get? b).bind fun state => state.peers.get? p).map
        fun peerState : PeerState => (⟨peerState.peer, peerState.stats⟩ : PeerStatsSnapshot)).isSome)
        = true at hrecord
      rw [OrderedMap.get?_delete] at hrecord
      split_ifs at hrecord
      · exact absurd hrecord Bool.false_ne_true
      · exact hrecord
    exact hpeer

end TrackerStore

end OpenStreamGrid
