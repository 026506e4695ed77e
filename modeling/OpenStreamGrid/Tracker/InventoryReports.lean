import OpenStreamGrid.Client.PeerDirectory
import OpenStreamGrid.Tracker.InventoryLimits
import OpenStreamGrid.Tracker.StoreAgreement

/-!
# Segment reports, stored and published

A segment report is stored by one piece of code, described to the subscribers
by another and carried out on their copies by a third. This module follows one
report through all three, for the WebSocket message `report_segments` and for
the REST route, and says when the copies still show what is stored.
-/

namespace OpenStreamGrid

/-- The body of a `report_segments` message. -/
structure ReportSegmentsMessage where
  segments : Option (List String)
  replace : Option Bool
  added : Option (List String)
  removed : Option (List String)
deriving DecidableEq

/-- The body of a REST segment report. -/
structure SegmentPossessionReport where
  segments : List String
  replace : Option Bool
deriving DecidableEq

namespace TrackerWebSocketHub

def requiredSegments (value : Option (List String)) : Except String (List SegmentId) :=
  match value.bind segmentIdList with
  | some segments => .ok segments
  | none => .error "'segments' must be an array of strings"

def hasSameSegments (store : TrackerStore) (broadcastId : BroadcastId) (peerId : PeerId)
    (segments : List SegmentId) : Bool :=
  match store.getPeer broadcastId peerId with
  | none => false
  | some peer =>
      let expected := OrderedSet.ofList segments
      decide (peer.segments.length = expected.size) &&
        peer.segments.all fun segment => decide (segment ∈ expected)

/-- The `report_segments` branch of `handleMessage`: the next store and the
message to publish, if any. `admitted` is the rate limiter's answer. -/
def handleReportSegments (store : TrackerStore) (admitted : Bool) (timestamp : Timestamp)
    (broadcastId : BroadcastId) (peerId : PeerId) (message : ReportSegmentsMessage) :
    Except String (TrackerStore × Option InventoryMessage) :=
  if message.added.isSome ∨ message.removed.isSome then
    match requiredSegments (some (message.added.getD [])),
        requiredSegments (some (message.removed.getD [])) with
    | .error reason, _ => .error reason
    | .ok _, .error reason => .error reason
    | .ok added, .ok removed =>
        if admitted = false then .error "Segment report rate limit exceeded"
        else
          match store.applySegmentDelta timestamp broadcastId peerId added removed with
          | .error e => .error e.message
          | .ok (store', _) =>
              .ok (store', some (.segmentInventoryDelta broadcastId peerId added removed))
  else
    match requiredSegments message.segments with
    | .error reason => .error reason
    | .ok segments =>
        if admitted = false then .error "Segment report rate limit exceeded"
        else
          let replace := message.replace.getD false
          if replace && hasSameSegments store broadcastId peerId segments then .ok (store, none)
          else
            match store.reportSegments timestamp broadcastId peerId segments replace with
            | .error e => .error e.message
            | .ok (store', _) =>
                .ok (store', some (.segmentAvailable broadcastId peerId segments replace))

end TrackerWebSocketHub

namespace TrackerServer

/-- The REST route `POST …/segments`: the next store, and the list handed to
the server's `segmentsAvailable` event. -/
def postSegments (store : TrackerStore) (admitted : Bool) (timestamp : Timestamp)
    (broadcastId : BroadcastId) (peerId : PeerId) (report : SegmentPossessionReport) :
    Except String (TrackerStore × List SegmentId) :=
  match segmentIdList report.segments with
  | none =>
      .error "'segments' must be an array of at most 512 non-empty strings of up to 512 characters"
  | some segments =>
      if admitted = false then .error "Segment report rate limit exceeded"
      else
        match store.reportSegments timestamp broadcastId peerId segments
            (report.replace.getD false) with
        | .error e => .error e.message
        | .ok (store', _) => .ok (store', segments)

/-- The server's `segmentsAvailable` event always publishes a replacement. -/
def segmentsAvailable (broadcastId : BroadcastId) (peerId : PeerId)
    (segments : List SegmentId) : InventoryMessage :=
  .segmentAvailable broadcastId peerId segments true

end TrackerServer

/-! ## The uncapped inventory of a report -/

/-- The de-duplicated inventory a message asks for, before the caps. -/
def ReportSegmentsMessage.merged (message : ReportSegmentsMessage) (existing : List SegmentId) :
    List SegmentId :=
  if message.added.isSome ∨ message.removed.isSome then
    mergedDelta existing (message.added.getD []) (message.removed.getD [])
  else mergedReport existing (message.segments.getD []) (message.replace.getD false)

theorem ReportSegmentsMessage.nodup_merged (message : ReportSegmentsMessage)
    (existing : List SegmentId) : (message.merged existing).Nodup := by
  unfold merged
  split_ifs
  · exact nodup_mergedDelta ..
  · exact nodup_mergedReport ..

/-- The same as an overwrite of the inventory. -/
def ReportSegmentsMessage.effect (message : ReportSegmentsMessage) : Overwrite SegmentId :=
  if message.added.isSome ∨ message.removed.isSome then
    .delta (message.added.getD []) (message.removed.getD [])
  else if message.replace.getD false then .replace (message.segments.getD [])
  else .delta (message.segments.getD []) []

theorem ReportSegmentsMessage.apply_effect (message : ReportSegmentsMessage)
    (existing : List SegmentId) :
    message.effect.apply {x | x ∈ existing} = {x | x ∈ message.merged existing} := by
  ext x
  unfold effect merged
  split_ifs with hdelta hreplace
  · simp [mem_mergedDelta]
  · simp [mem_mergedReport, hreplace]
  · simp [mem_mergedReport, hreplace]

/-- Every inventory is duplicate-free and within the caps. -/
def TrackerStore.ValidInventories (s : TrackerStore) : Prop :=
  ∀ b p peerState, s.peerState? b p = some peerState →
    peerState.peer.segments.Nodup ∧ WithinCaps s.maxSegmentsPerPeer peerState.peer.segments

theorem TrackerStore.ValidInventories.update {s s' : TrackerStore} {b : BroadcastId} {p : PeerId}
    {new : Option PeerState} (h : s.ValidInventories) (hs : s.PeerUpdated s' b p new)
    (hnew : ∀ peerState, new = some peerState → peerState.peer.segments.Nodup ∧
      WithinCaps s.maxSegmentsPerPeer peerState.peer.segments) : s'.ValidInventories := by
  intro b' p' peerState hp
  rw [hs.peerState?] at hp
  rw [hs.maxSegmentsPerPeer]
  split_ifs at hp with hbp
  · exact hnew peerState hp
  · exact h b' p' peerState hp

theorem TrackerStore.ValidInventories.modify {s s' : TrackerStore} {b : BroadcastId} {p : PeerId}
    {f : PeerState → PeerState} {peer : Peer} {merged : PeerState → List SegmentId}
    (h : s.ValidInventories) (hf : s.modifyPeer b p f = .ok (s', peer))
    (hnd : ∀ peerState, (merged peerState).Nodup)
    (hcap : ∀ peerState, (f peerState).peer.segments
      = limitInventory (merged peerState) s.maxSegmentsPerPeer) : s'.ValidInventories := by
  obtain ⟨old, -, -, hs⟩ := TrackerStore.modifyPeer_updated hf
  refine h.update hs ?_
  rintro peerState heq
  obtain rfl := Option.some.inj heq
  rw [hcap]
  exact ⟨nodup_limitInventory (hnd old), fits_limitInventoryTo ..⟩

/-- **Stored inventories are always valid.** -/
theorem validInventories_applyOps (maxSegmentsPerPeer : ℕ) (ops : List InventoryOp) :
    (ops.foldl TrackerStore.applyOp (.new maxSegmentsPerPeer)).ValidInventories := by
  suffices gen : ∀ s : TrackerStore, s.ValidInventories →
      (ops.foldl TrackerStore.applyOp s).ValidInventories by
    refine gen _ ?_
    rintro b p peerState ⟨⟩
  induction ops with
  | nil => exact fun s h => h
  | cons op rest ih =>
      intro s h
      refine ih _ ?_
      cases op with
      | registerBroadcast t registration =>
          intro b p peerState hp
          simp only [TrackerStore.applyOp, TrackerStore.peerState?_registerBroadcast,
            TrackerStore.registerBroadcast_maxSegmentsPerPeer] at hp ⊢
          exact h b p peerState hp
      | joinPeer t b request options =>
          simp only [TrackerStore.applyOp]
          cases hj : s.joinPeerDetailed t b request options with
          | error e => exact h
          | ok result =>
              obtain ⟨state, hs, -, hpeer, -, hs'⟩ := TrackerStore.joinPeerDetailed_ok.mp hj
              rw [stateAfter, hs']
              refine h.update (TrackerStore.peerUpdated_setPeer hs _ _) ?_
              rintro peerState heq
              obtain rfl := Option.some.inj heq
              rw [hpeer]
              cases hp : state.peers.get? request.id with
              | none => exact ⟨List.nodup_nil, fits_nil _ _⟩
              | some old => exact h b request.id old (TrackerStore.peerState?_eq_some.mpr ⟨_, hs, hp⟩)
      | reportSegments t b p segments replace =>
          simp only [TrackerStore.applyOp]
          cases hr : s.reportSegments t b p segments replace with
          | error e => exact h
          | ok result =>
              exact h.modify hr (fun old => nodup_mergedReport old.peer.segments segments replace)
                (fun _ => rfl)
      | applySegmentDelta t b p added removed =>
          simp only [TrackerStore.applyOp]
          cases hr : s.applySegmentDelta t b p added removed with
          | error e => exact h
          | ok result =>
              exact h.modify hr (fun old => nodup_mergedDelta old.peer.segments added removed)
                (fun _ => rfl)
      | leavePeer b p =>
          simp only [TrackerStore.applyOp]
          cases hl : s.leavePeer b p with
          | error e => exact h
          | ok s' =>
              rw [(TrackerStore.leavePeer_ok.mp hl).2]
              refine h.update TrackerStore.peerUpdated_retirePeer ?_
              rintro _ ⟨⟩

namespace TrackerWebSocketHub

theorem requiredSegments_ok {value : Option (List String)} {segments : List SegmentId} :
    requiredSegments value = .ok segments ↔ value = some segments ∧ ValidSegmentIdList segments := by
  unfold requiredSegments
  cases value with
  | none => simp
  | some list =>
      simp only [Option.bind_some, Option.some.injEq]
      cases h : segmentIdList list with
      | none =>
          simp only [reduceCtorEq, false_iff, not_and]
          rintro rfl hvalid
          rw [segmentIdList_eq_some.mpr ⟨rfl, hvalid⟩] at h
          exact absurd h (by simp)
      | some ids =>
          obtain ⟨rfl, hvalid⟩ := segmentIdList_eq_some.mp h
          simp only [Except.ok.injEq]
          constructor
          · rintro rfl
            exact ⟨rfl, hvalid⟩
          · rintro ⟨rfl, -⟩
            rfl

/-- A replacement by the set that is stored asks for a permutation of it. -/
theorem mergedReport_perm_of_hasSameSegments {store : TrackerStore} {b : BroadcastId} {p : PeerId}
    {segments : List SegmentId} {stored : Peer} (hstored : store.getPeer b p = some stored)
    (hnd : stored.segments.Nodup) (h : hasSameSegments store b p segments = true) :
    stored.segments.Perm (mergedReport stored.segments segments true) := by
  simp only [hasSameSegments, hstored, Bool.and_eq_true, decide_eq_true_eq, List.all_eq_true] at h
  have hsubset : stored.segments ⊆ (OrderedSet.ofList segments).toList := h.2
  have hle : (OrderedSet.ofList segments).toList.length ≤ stored.segments.length :=
    Nat.le_of_eq h.1.symm
  exact ((List.subperm_of_subset hnd hsubset).perm_of_length_le hle)

/-- **What an accepted report does.** Either it replaces the inventory by what
is stored already, and nothing happens, or the capped merge is stored and the
published message asks for the merge. -/
theorem handleReportSegments_ok {store store' : TrackerStore} {t : Timestamp} {b : BroadcastId}
    {p : PeerId} {message : ReportSegmentsMessage} {published : Option InventoryMessage}
    (h : handleReportSegments store true t b p message = .ok (store', published)) :
    (store' = store ∧ published = none ∧
        ∀ stored, store.getPeer b p = some stored → stored.segments.Nodup →
          stored.segments.Perm (message.merged stored.segments)) ∨
      ∃ peerState m, store.peerState? b p = some peerState ∧ published = some m ∧
        m.broadcastId = b ∧ m.peerId = p ∧
        m.effect = message.effect ∧
        store.PeerUpdated store' b p (some
          { peerState with
            peer :=
              { peerState.peer with
                segments := limitInventory (message.merged peerState.peer.segments)
                  store.maxSegmentsPerPeer
                lastSeenAt := t } }) := by
  unfold handleReportSegments at h
  by_cases hdelta : message.added.isSome ∨ message.removed.isSome
  · rw [if_pos hdelta] at h
    cases hadded : requiredSegments (some (message.added.getD [])) with
    | error reason => simp [hadded] at h
    | ok added =>
        cases hremoved : requiredSegments (some (message.removed.getD [])) with
        | error reason => simp [hadded, hremoved] at h
        | ok removed =>
            obtain ⟨ha, -⟩ := requiredSegments_ok.mp hadded
            obtain ⟨hr, -⟩ := requiredSegments_ok.mp hremoved
            cases hs : store.applySegmentDelta t b p added removed with
            | error e => simp [hadded, hremoved, hs] at h
            | ok result =>
                obtain ⟨next, peer⟩ := result
                simp only [hadded, hremoved, hs, Bool.true_eq_false, if_false, Except.ok.injEq,
                  Prod.mk.injEq] at h
                obtain ⟨rfl, rfl⟩ := h
                have hmerged : ∀ existing, message.merged existing
                    = mergedDelta existing added removed := by
                  intro existing
                  rw [ReportSegmentsMessage.merged, if_pos hdelta, Option.some.inj ha,
                    Option.some.inj hr]
                obtain ⟨peerState, hp, -, hupdate⟩ := TrackerStore.modifyPeer_updated hs
                refine Or.inr ⟨peerState, _, hp, rfl, rfl, rfl, ?_, ?_⟩
                · rw [ReportSegmentsMessage.effect, if_pos hdelta, Option.some.inj ha,
                    Option.some.inj hr]
                  rfl
                · rw [hmerged]
                  exact hupdate
  · rw [if_neg hdelta] at h
    cases hsegments : requiredSegments message.segments with
    | error reason => simp [hsegments] at h
    | ok segments =>
        obtain ⟨hs, -⟩ := requiredSegments_ok.mp hsegments
        have hmerged : ∀ existing, message.merged existing
            = mergedReport existing segments (message.replace.getD false) := by
          intro existing
          rw [ReportSegmentsMessage.merged, if_neg hdelta, hs, Option.getD_some]
        simp only [hsegments, Bool.true_eq_false, if_false] at h
        by_cases hsame : (message.replace.getD false && hasSameSegments store b p segments) = true
        · rw [if_pos hsame] at h
          simp only [Except.ok.injEq, Prod.mk.injEq] at h
          rw [Bool.and_eq_true] at hsame
          refine Or.inl ⟨h.1.symm, h.2.symm, fun stored hstored hnd => ?_⟩
          rw [hmerged, hsame.1]
          exact mergedReport_perm_of_hasSameSegments hstored hnd hsame.2
        · rw [if_neg hsame] at h
          cases hr : store.reportSegments t b p segments (message.replace.getD false) with
          | error e => simp [hr] at h
          | ok result =>
              obtain ⟨next, peer⟩ := result
              simp only [hr, Except.ok.injEq, Prod.mk.injEq] at h
              obtain ⟨rfl, rfl⟩ := h
              obtain ⟨peerState, hp, -, hupdate⟩ := TrackerStore.modifyPeer_updated hr
              refine Or.inr ⟨peerState, _, hp, rfl, rfl, rfl, ?_, ?_⟩
              · rw [ReportSegmentsMessage.effect, if_neg hdelta, hs, Option.getD_some]
                cases message.replace.getD false <;> rfl
              · rw [hmerged]
                exact hupdate

end TrackerWebSocketHub

/-! ## Copies after a report -/

/-- A subscriber is sent the published message, if there is one. -/
def PeerDirectory.receive (d : PeerDirectory) : Option InventoryMessage → PeerDirectory
  | none => d
  | some message => d.handleMessage message.toServerMessage

/-- **A published update describes the merge, not the eviction.** A copy that
showed the stored inventory shows the uncapped merge after the update; it
contains what is stored, and is it exactly when no cap is reached. -/
theorem published_update_describes_merge {store store' : TrackerStore} {t : Timestamp}
    {b : BroadcastId} {p : PeerId} {message : ReportSegmentsMessage}
    {published : Option InventoryMessage} {d : PeerDirectory} {stored stored' : Peer}
    (hvalid : store.ValidInventories)
    (haccepted : TrackerWebSocketHub.handleReportSegments store true t b p message
      = .ok (store', published))
    (hd : d.broadcastId = b) (hstored : store.getPeer b p = some stored)
    (hcopy : d.HoldsCopyOf p stored) (hstored' : store'.getPeer b p = some stored') :
    (d.receive published).inventory p = {x | x ∈ message.merged stored.segments} ∧
      {x | x ∈ stored'.segments} ⊆ (d.receive published).inventory p ∧
      ((d.receive published).HoldsCopyOf p stored' ↔
        WithinCaps store.maxSegmentsPerPeer (message.merged stored.segments)) := by
  obtain ⟨hknown, hinventory⟩ := hcopy
  obtain ⟨old, hold, rfl⟩ := Option.map_eq_some_iff.mp hstored
  obtain ⟨hnd, hcaps⟩ := hvalid b p old hold
  rcases TrackerWebSocketHub.handleReportSegments_ok haccepted with
    ⟨rfl, rfl, hsame⟩ | ⟨peerState, m, hp, rfl, hmb, hmp, heffect, hupdate⟩
  · obtain rfl := Option.some.inj (hstored'.symm.trans hstored)
    have hperm := hsame old.peer hstored hnd
    have hset : d.inventory p = {x | x ∈ message.merged old.peer.segments} := by
      rw [hinventory]
      ext x
      exact hperm.mem_iff
    refine ⟨hset, ?_, ?_⟩
    · rw [PeerDirectory.receive, hinventory]
    · exact ⟨fun _ => (Fits.perm hperm).mp hcaps, fun _ => ⟨hknown, hinventory⟩⟩
  · obtain rfl := Option.some.inj (hp.symm.trans hold)
    have hreceived : (d.receive (some m)).inventory p
        = {x | x ∈ message.merged peerState.peer.segments} := by
      rw [PeerDirectory.receive, ← hmp,
        PeerDirectory.inventory_handleMessage_inventoryMessage (hmb.trans hd.symm)
          (by rw [hmp]; exact hknown), hmp, hinventory, heffect,
        message.apply_effect]
    have hsegments : stored'.segments
        = limitInventory (message.merged peerState.peer.segments) store.maxSegmentsPerPeer := by
      rw [TrackerStore.getPeer, hupdate.peerState?, if_pos ⟨rfl, rfl⟩] at hstored'
      rw [← Option.some.inj hstored']
    have hsub : {x | x ∈ stored'.segments} ⊆ (d.receive (some m)).inventory p := by
      rw [hreceived, hsegments]
      intro x hx
      exact (limitInventory_sublist _ _).subset hx
    refine ⟨hreceived, hsub, ?_, ?_⟩
    · rintro ⟨-, heq⟩
      by_contra hover
      obtain ⟨x, hx, hdropped⟩ :=
        exists_dropped_of_not_withinCaps (message.nodup_merged peerState.peer.segments) hover
      rw [hreceived, hsegments] at heq
      exact hdropped (heq ▸ hx : x ∈ {x | x ∈ limitInventory _ _})
    · intro hfits
      refine ⟨?_, ?_⟩
      · obtain ⟨u, hu, -⟩ :=
          PeerDirectory.handleMessage_inventoryMessage (hmb.trans hd.symm)
        rw [PeerDirectory.receive, hu]
        exact PeerDirectory.mem_applyUpdate.mpr hknown
      · rw [hreceived, hsegments, limitInventory_eq_self_iff.mpr hfits]

/-- A store in which one peer reported one list of segments. -/
def reportedStore (maxSegmentsPerPeer : ℕ) (segments : List SegmentId) : TrackerStore :=
  (twoSegmentRun [(segments, true)]).foldl TrackerStore.applyOp (.new maxSegmentsPerPeer)

/-- That peer, as it is stored. -/
def reportedPeer (segments : List SegmentId) : Peer :=
  { joinedPeer ⟨"p", "http://p", none, none⟩ none 0 with segments }

/-- A subscriber that was sent the peer as it is stored. -/
def informedSubscriber (segments : List SegmentId) : PeerDirectory :=
  (PeerDirectory.new "live").handleMessages [.peerList "live" [reportedPeer segments]]

/-- A delta by one peer. -/
def deltaMessage (added removed : List SegmentId) : ReportSegmentsMessage :=
  ⟨none, none, some added, some removed⟩

theorem published_update_describes_merge_within_caps :
    ((informedSubscriber ["s1"]).receive
      (some (.segmentInventoryDelta "live" "p" ["s2"] []))).HoldsCopyOf "p"
        (reportedPeer ["s1", "s2"]) :=
  (published_update_describes_merge
    (validInventories_applyOps 2 (twoSegmentRun [(["s1"], true)]))
    (show TrackerWebSocketHub.handleReportSegments (reportedStore 2 ["s1"]) true 0 "live" "p"
        (deltaMessage ["s2"] [])
      = Except.ok ((reportedStore 2 ["s1"]).applyOp
          (.applySegmentDelta 0 "live" "p" ["s2"] []), some _) from rfl) rfl
    (show _ = some (reportedPeer ["s1"]) from rfl) ⟨by decide, rfl⟩ rfl).2.2.mpr (by decide)

/-- With room for one ID, a delta of a second evicts the first from the store,
and the published delta leaves it in the copy. -/
theorem copy_outlives_eviction :
    ¬ ∀ (store store' : TrackerStore) (t : Timestamp) (b : BroadcastId) (p : PeerId)
        (message : ReportSegmentsMessage) (published : Option InventoryMessage)
        (d : PeerDirectory) (stored stored' : Peer),
        store.ValidInventories →
        TrackerWebSocketHub.handleReportSegments store true t b p message
          = .ok (store', published) →
        d.broadcastId = b → store.getPeer b p = some stored → d.HoldsCopyOf p stored →
        store'.getPeer b p = some stored' →
        (d.receive published).HoldsCopyOf p stored' := by
  intro h
  have hcopy := h (reportedStore 1 ["s1"])
    ((reportedStore 1 ["s1"]).applyOp (.applySegmentDelta 0 "live" "p" ["s2"] []))
    0 "live" "p" (deltaMessage ["s2"] []) _ (informedSubscriber ["s1"]) (reportedPeer ["s1"])
    (reportedPeer ["s2"]) (validInventories_applyOps 1 (twoSegmentRun [(["s1"], true)]))
    rfl rfl rfl ⟨by decide, rfl⟩ rfl
  have hstale : "s1" ∈ {x | x ∈ (reportedPeer ["s2"]).segments} := by
    rw [← hcopy.2]
    decide
  revert hstale
  decide

/-! ## Copies after a REST report -/

/-- **A REST report keeps the copies exactly when it lists everything.** The
server publishes the reported list as a replacement, so a report that is stored
as an addition and omits a stored ID makes the copies lose that ID. -/
theorem rest_report_keeps_copies_iff {store store' : TrackerStore} {t : Timestamp}
    {b : BroadcastId} {p : PeerId} {report : SegmentPossessionReport} {segments : List SegmentId}
    {d : PeerDirectory} {stored stored' : Peer}
    (haccepted : TrackerServer.postSegments store true t b p report = .ok (store', segments))
    (hd : d.broadcastId = b) (hstored : store.getPeer b p = some stored)
    (hcopy : d.HoldsCopyOf p stored) (hstored' : store'.getPeer b p = some stored')
    (hfits : WithinCaps store.maxSegmentsPerPeer
      (mergedReport stored.segments report.segments (report.replace.getD false))) :
    (d.handleMessage (TrackerServer.segmentsAvailable b p segments).toServerMessage).HoldsCopyOf
        p stored' ↔
      report.replace = some true ∨ ∀ x ∈ stored.segments, x ∈ report.segments := by
  obtain ⟨old, hold, rfl⟩ := Option.map_eq_some_iff.mp hstored
  unfold TrackerServer.postSegments at haccepted
  cases hlist : segmentIdList report.segments with
  | none => simp [hlist] at haccepted
  | some ids =>
      obtain ⟨rfl, -⟩ := segmentIdList_eq_some.mp hlist
      cases hr : store.reportSegments t b p report.segments (report.replace.getD false) with
      | error e => simp [hlist, hr] at haccepted
      | ok result =>
          obtain ⟨next, peer⟩ := result
          simp only [hlist, hr, Bool.true_eq_false, if_false, Except.ok.injEq,
            Prod.mk.injEq] at haccepted
          obtain ⟨rfl, rfl⟩ := haccepted
          obtain ⟨peerState, hp, -, hupdate⟩ := TrackerStore.modifyPeer_updated hr
          obtain rfl := Option.some.inj (hp.symm.trans hold)
          rw [TrackerStore.getPeer, hupdate.peerState?, if_pos ⟨rfl, rfl⟩] at hstored'
          obtain rfl := Option.some.inj hstored'
          have hknown : p ∈ (d.handleMessage
              (TrackerServer.segmentsAvailable b p report.segments).toServerMessage).peers := by
            obtain ⟨u, hu, -⟩ := PeerDirectory.handleMessage_inventoryMessage
              (m := TrackerServer.segmentsAvailable b p report.segments) hd.symm
            rw [hu]
            exact PeerDirectory.mem_applyUpdate.mpr hcopy.1
          have hreceived : (d.handleMessage
              (TrackerServer.segmentsAvailable b p report.segments).toServerMessage).inventory p
              = {x | x ∈ report.segments} := by
            have := PeerDirectory.inventory_handleMessage_inventoryMessage
              (m := TrackerServer.segmentsAvailable b p report.segments) hd.symm hcopy.1
            rw [show (TrackerServer.segmentsAvailable b p report.segments).peerId = p from rfl]
              at this
            rw [this]
            ext x
            simp [TrackerServer.segmentsAvailable, InventoryMessage.effect]
          unfold PeerDirectory.HoldsCopyOf
          simp only [hknown, hreceived, true_and, limitInventory_eq_self_iff.mpr hfits]
          constructor
          · intro heq
            cases hreplace : report.replace.getD false with
            | true =>
                left
                revert hreplace
                rcases report.replace with _ | _ | _ <;> simp
            | false =>
                right
                intro x hx
                have hmem : x ∈ {x | x ∈ mergedReport peerState.peer.segments report.segments
                    (report.replace.getD false)} :=
                  mem_mergedReport.mpr (Or.inl ⟨hreplace, hx⟩)
                rw [← heq] at hmem
                exact hmem
          · intro hall
            ext x
            simp only [Set.mem_ofPred_eq, mem_mergedReport]
            constructor
            · exact Or.inr
            · rintro (⟨hreplace, hx⟩ | hx)
              · rcases hall with hall | hall
                · simp [hall] at hreplace
                · exact hall x hx
              · exact hx

/-- A full listing as a REST report keeps the copy. -/
theorem rest_report_keeps_copies_iff_full :
    ((informedSubscriber ["s1"]).handleMessage
      (TrackerServer.segmentsAvailable "live" "p" ["s1", "s2"]).toServerMessage).HoldsCopyOf "p"
        (reportedPeer ["s1", "s2"]) :=
  (rest_report_keeps_copies_iff
    (show TrackerServer.postSegments (reportedStore 9 ["s1"]) true 0 "live" "p"
        ⟨["s1", "s2"], none⟩
      = Except.ok ((reportedStore 9 ["s1"]).applyOp
          (.reportSegments 0 "live" "p" ["s1", "s2"] false), _) from rfl) rfl
    (show _ = some (reportedPeer ["s1"]) from rfl) ⟨by decide, rfl⟩ rfl (by decide)).mpr
    (by decide)

/-- An additive REST report of a new ID is published as a replacement. -/
theorem rest_report_loses_stored_segments :
    ¬ ∀ (store store' : TrackerStore) (t : Timestamp) (b : BroadcastId) (p : PeerId)
        (report : SegmentPossessionReport) (segments : List SegmentId)
        (d : PeerDirectory) (stored stored' : Peer),
        TrackerServer.postSegments store true t b p report = .ok (store', segments) →
        d.broadcastId = b → store.getPeer b p = some stored → d.HoldsCopyOf p stored →
        store'.getPeer b p = some stored' →
        WithinCaps store.maxSegmentsPerPeer
          (mergedReport stored.segments report.segments (report.replace.getD false)) →
        (d.handleMessage
          (TrackerServer.segmentsAvailable b p segments).toServerMessage).HoldsCopyOf p stored' := by
  intro h
  have hcopy := h (reportedStore 9 ["s1"])
    ((reportedStore 9 ["s1"]).applyOp (.reportSegments 0 "live" "p" ["s2"] false))
    0 "live" "p" ⟨["s2"], none⟩ _ (informedSubscriber ["s1"]) (reportedPeer ["s1"])
    (reportedPeer ["s1", "s2"]) rfl rfl rfl ⟨by decide, rfl⟩ rfl (by decide)
  have hlost : "s1" ∈ {x | x ∈ (reportedPeer ["s1", "s2"]).segments} := by decide
  rw [← hcopy.2] at hlost
  revert hlost
  decide

end OpenStreamGrid
