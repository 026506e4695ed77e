import OpenStreamGrid.Tracker.InventoryReports
import OpenStreamGrid.Tracker.SqliteParts

/-!
# The newest segments are kept

What both stores keep of a report is, up to order, the longest suffix of the
merged list within the caps. The SQLite store merges onto the IDs in the order of
its rows, so the two stores may keep different segments; each keeps the newest of
what it listed before.
-/

namespace OpenStreamGrid

/-- A report on a peer's inventory. -/
inductive InventoryReport where
  | additive (segments : List SegmentId)
  | replace (segments : List SegmentId)
  | delta (added removed : List SegmentId)

namespace InventoryReport

def op (b : BroadcastId) (p : PeerId) : InventoryReport → StoreOp
  | .additive segments => .reportSegments b p segments false
  | .replace segments => .reportSegments b p segments true
  | .delta added removed => .applySegmentDelta b p added removed

/-- The merged list without duplicates, on the IDs `returned` before. -/
def merged (returned : List SegmentId) : InventoryReport → List SegmentId
  | .additive segments => returned ++ (segments.filter fun x => decide (x ∉ returned)).eraseDups
  | .replace segments => segments.eraseDups
  | .delta added removed =>
      let rest := returned.filter fun x => decide (x ∉ removed)
      rest ++ (added.filter fun x => decide (x ∉ rest)).eraseDups

end InventoryReport

theorem mergedReport_additive {existing segments : List SegmentId} (h : existing.Nodup) :
    mergedReport existing segments false = InventoryReport.merged existing (.additive segments) := by
  show (OrderedSet.ofList (existing ++ segments)).toList = _
  rw [OrderedSet.ofList_append, OrderedSet.toList_insertAll,
    OrderedSet.toList_ofList_of_nodup h]
  simp only [OrderedSet.mem_ofList]
  rfl

theorem mergedReport_replace (existing segments : List SegmentId) :
    mergedReport existing segments true = InventoryReport.merged existing (.replace segments) :=
  OrderedSet.toList_ofList segments

theorem mergedDelta_eq {existing added removed : List SegmentId} (h : existing.Nodup) :
    mergedDelta existing added removed = InventoryReport.merged existing (.delta added removed) := by
  have hrest : ((OrderedSet.ofList existing).eraseAll removed).toList
      = existing.filter fun x => decide (x ∉ removed) := by
    rw [OrderedSet.toList_eraseAll, OrderedSet.toList_ofList_of_nodup h]
  unfold mergedDelta
  rw [OrderedSet.toList_insertAll, hrest]
  simp only [← OrderedSet.mem_toList, hrest]
  rfl

/-- The longest suffix of a list within both caps. -/
structure LongestSuffix (maxSegments : ℕ) (merged suffix : List SegmentId) : Prop where
  isSuffix : suffix <:+ merged
  withinCaps : WithinCaps maxSegments suffix
  longest : ∀ other, other <:+ merged → WithinCaps maxSegments other →
    other.length ≤ suffix.length

theorem longestSuffix_limitInventory (merged : List SegmentId) (maxSegments : ℕ) :
    LongestSuffix maxSegments merged (limitInventory merged maxSegments) where
  isSuffix := limitInventoryTo_suffix ..
  withinCaps := fits_limitInventoryTo ..
  longest _ hsuffix hfits := (suffix_limitInventoryTo hsuffix hfits).length_le

/-- A store whose inventories stay within the caps and keep the newest segments. -/
structure TrackerStoreBackend.KeepsNewest {σ : Type} (T : TrackerStoreBackend σ)
    (maxSegmentsPerPeer : ℕ) : Prop where
  withinCaps : ∀ calls b p peer, T.getPeer (T.afterCalls calls) b p = some peer →
    peer.segments.Nodup ∧ WithinCaps maxSegmentsPerPeer peer.segments
  reported : ∀ calls t b p (report : InventoryReport) s' value,
    T.perform (T.afterCalls calls) t (report.op b p) = .ok (s', value) →
    ∃ before after suffix, T.getPeer (T.afterCalls calls) b p = some before ∧
      T.getPeer s' b p = some after ∧
      LongestSuffix maxSegmentsPerPeer (report.merged before.segments) suffix ∧
      ∀ x, x ∈ after.segments ↔ x ∈ suffix

theorem returning_ok {σ α : Type} {f : α → StoreValue} {r : Except StoreError (σ × α)} {s' : σ}
    {value : StoreValue} (h : returning f r = .ok (s', value)) : ∃ a, r = .ok (s', a) := by
  cases r with
  | error e => exact absurd h (by simp [returning, Except.map])
  | ok x =>
      obtain ⟨rfl, -⟩ := Prod.mk.inj (Except.ok.inj h)
      exact ⟨x.2, rfl⟩

/-! ## The in-memory store -/

namespace TrackerStore

variable {s s' : TrackerStore} {b : BroadcastId} {p : PeerId}

/-- A change of a peer that leaves its inventory. -/
theorem ValidInventories.modify_same {f : PeerState → PeerState} {peer : Peer}
    (h : s.ValidInventories) (hf : s.modifyPeer b p f = .ok (s', peer))
    (hsame : ∀ peerState, (f peerState).peer.segments = peerState.peer.segments) :
    s'.ValidInventories := by
  obtain ⟨old, hold, -, hs⟩ := modifyPeer_updated hf
  refine h.update hs ?_
  rintro peerState heq
  obtain rfl := Option.some.inj heq
  rw [hsame]
  exact h b p old hold

theorem ValidInventories.retirePeers (h : s.ValidInventories) (stale : List StalePeer) :
    (s.retirePeers stale).ValidInventories := by
  induction stale generalizing s with
  | nil => exact h
  | cons x rest ih =>
      apply ih
      exact h.update peerUpdated_retirePeer fun peerState heq => absurd heq (by simp)

theorem ValidInventories.effect {t : Timestamp} {op : StoreOp} (h : s.ValidInventories)
    (heffect : CallEffect s t op s') (htarget : op.target = none) : s'.ValidInventories := by
  cases heffect with
  | kept => exact h
  | registered registration =>
      intro b p peerState hp
      rw [peerState?_registerBroadcast] at hp
      rw [registerBroadcast_maxSegmentsPerPeer]
      exact h b p peerState hp
  | unregistered id =>
      intro b p peerState hp
      apply h b p peerState
      unfold peerState? at hp ⊢
      change ((s.broadcasts.delete id).get? b).bind _ = _ at hp
      rw [OrderedMap.get?_delete] at hp
      split_ifs at hp
      · exact absurd hp (by simp)
      · exact hp
  | left b p => exact h.retirePeers _
  | swept maxAgeMs => exact h.retirePeers _
  | @joined b request options state hs =>
      refine h.update (peerUpdated_setPeer hs request.id _) ?_
      rintro peerState heq
      obtain rfl := Option.some.inj heq
      cases hp : state.peers.get? request.id with
      | none => exact ⟨List.nodup_nil, fits_nil _ _⟩
      | some old => exact h b request.id old (peerState?_eq_some.mpr ⟨_, hs, hp⟩)
  | written hsome => exact absurd (hsome.symm.trans htarget) (by simp)

/-- Every call leaves the inventories valid. -/
theorem ValidInventories.next (h : s.ValidInventories) (maxSegmentsPerPeer : ℕ) (t : Timestamp)
    (op : StoreOp) : ((backend maxSegmentsPerPeer).next s t op).ValidInventories := by
  have heffect := next_effect s maxSegmentsPerPeer t op
  cases op with
  | reportSegments b p segments replace =>
      refine stateAfter_returning (P := ValidInventories) h fun s' peer hok => ?_
      exact h.modify hok (fun old => nodup_mergedReport old.peer.segments segments replace)
        fun _ => rfl
  | applySegmentDelta b p added removed =>
      refine stateAfter_returning (P := ValidInventories) h fun s' peer hok => ?_
      exact h.modify hok (fun old => nodup_mergedDelta old.peer.segments added removed)
        fun _ => rfl
  | heartbeat b p heartbeat =>
      refine stateAfter_returning (P := ValidInventories) h fun s' peer hok => ?_
      exact h.modify_same hok fun _ => rfl
  | reportStats b p stats =>
      refine stateAfter_writing (P := ValidInventories) h fun s' hok => ?_
      change (s.reportStats t b p stats).map Prod.fst = _ at hok
      cases hr : s.reportStats t b p stats with
      | error e =>
          rw [hr] at hok
          exact absurd hok (by simp [Except.map])
      | ok result =>
          rw [hr] at hok
          obtain rfl := Except.ok.inj hok
          exact h.modify_same hr fun _ => rfl
  | reportPeerFailure b p report =>
      refine stateAfter_returning (P := ValidInventories) h fun s' peer hok => ?_
      obtain ⟨state, old, _, _, hs, hp, rfl, -⟩ := reportPeerFailure_ok hok
      have hold := h b p old (peerState?_eq_some.mpr ⟨state, hs, hp⟩)
      refine (h.update (peerUpdated_setPeer hs p _) ?_ : (s.setPeer b state p _).ValidInventories)
      rintro peerState heq
      obtain rfl := Option.some.inj heq
      exact hold
  | _ => exact h.effect heffect rfl

theorem maxSegmentsPerPeer_retirePeers (stale : List StalePeer) :
    (s.retirePeers stale).maxSegmentsPerPeer = s.maxSegmentsPerPeer := by
  induction stale generalizing s with
  | nil => rfl
  | cons x rest ih => exact ih.trans peerUpdated_retirePeer.maxSegmentsPerPeer

theorem CallEffect.maxSegmentsPerPeer {t : Timestamp} {op : StoreOp} (h : CallEffect s t op s') :
    s'.maxSegmentsPerPeer = s.maxSegmentsPerPeer := by
  cases h with
  | kept => rfl
  | registered registration => exact registerBroadcast_maxSegmentsPerPeer s t registration
  | unregistered => rfl
  | left => exact maxSegmentsPerPeer_retirePeers _
  | swept => exact maxSegmentsPerPeer_retirePeers _
  | joined => rfl
  | written => rfl

theorem validInventories_afterCalls (maxSegmentsPerPeer : ℕ)
    (calls : List (Timestamp × StoreOp)) :
    ((backend maxSegmentsPerPeer).afterCalls calls).ValidInventories ∧
      ((backend maxSegmentsPerPeer).afterCalls calls).maxSegmentsPerPeer = maxSegmentsPerPeer := by
  apply TrackerStoreBackend.afterCalls_induction (P := fun s : TrackerStore =>
    s.ValidInventories ∧ s.maxSegmentsPerPeer = maxSegmentsPerPeer)
  · refine ⟨?_, rfl⟩
    rintro b p peerState ⟨⟩
  · rintro s t op ⟨hvalid, hmax⟩
    exact ⟨hvalid.next maxSegmentsPerPeer t op,
      (s.next_effect maxSegmentsPerPeer t op).maxSegmentsPerPeer.trans hmax⟩

theorem getPeer_eq_some {peer : Peer} :
    s.getPeer b p = some peer ↔ ∃ peerState, s.peerState? b p = some peerState ∧
      peerState.peer = peer :=
  Option.map_eq_some_iff

/-- What a report leaves of a peer. -/
theorem perform_report {maxSegmentsPerPeer : ℕ} {t : Timestamp} {report : InventoryReport}
    {value : StoreValue} (h : s.ValidInventories)
    (hok : (backend maxSegmentsPerPeer).perform s t (report.op b p) = .ok (s', value)) :
    ∃ before after, s.getPeer b p = some before ∧ s'.getPeer b p = some after ∧
      after.segments = limitInventory (report.merged before.segments) s.maxSegmentsPerPeer := by
  have hmodify : ∀ {f : PeerState → PeerState} {merged : List SegmentId → List SegmentId}
      {peer : Peer}, s.modifyPeer b p f = .ok (s', peer) →
      (∀ old, (f old).peer.segments
        = limitInventory (merged old.peer.segments) s.maxSegmentsPerPeer) →
      (∀ existing : List SegmentId, existing.Nodup → merged existing = report.merged existing) →
      ∃ before after, s.getPeer b p = some before ∧ s'.getPeer b p = some after ∧
        after.segments = limitInventory (report.merged before.segments) s.maxSegmentsPerPeer := by
    intro f merged peer hf hcap hmerged
    obtain ⟨old, hold, -, hupdated⟩ := modifyPeer_updated hf
    refine ⟨old.peer, (f old).peer, getPeer_eq_some.mpr ⟨old, hold, rfl⟩,
      getPeer_eq_some.mpr ⟨f old, ?_, rfl⟩, ?_⟩
    · rw [hupdated.peerState?, if_pos ⟨rfl, rfl⟩]
    · rw [hcap, hmerged _ (h b p old hold).1]
  cases report with
  | additive segments =>
      have hr : ∃ peer, s.reportSegments t b p segments false = .ok (s', peer) := returning_ok hok
      obtain ⟨peer, hr⟩ := hr
      exact hmodify hr (fun _ => rfl) fun existing hnd => mergedReport_additive hnd
  | replace segments =>
      have hr : ∃ peer, s.reportSegments t b p segments true = .ok (s', peer) := returning_ok hok
      obtain ⟨peer, hr⟩ := hr
      exact hmodify hr (fun _ => rfl) fun existing _ => mergedReport_replace existing segments
  | delta added removed =>
      have hr : ∃ peer, s.applySegmentDelta t b p added removed = .ok (s', peer) := returning_ok hok
      obtain ⟨peer, hr⟩ := hr
      exact hmodify hr (fun _ => rfl) fun existing hnd => mergedDelta_eq hnd

theorem keepsNewest (maxSegmentsPerPeer : ℕ) :
    (backend maxSegmentsPerPeer).KeepsNewest maxSegmentsPerPeer where
  withinCaps calls b p peer hpeer := by
    obtain ⟨hvalid, hmax⟩ := validInventories_afterCalls maxSegmentsPerPeer calls
    obtain ⟨peerState, hstate, rfl⟩ := getPeer_eq_some.mp hpeer
    have hinventory := hvalid b p peerState hstate
    rw [hmax] at hinventory
    exact hinventory
  reported calls t b p report s' value hok := by
    obtain ⟨hvalid, hmax⟩ := validInventories_afterCalls maxSegmentsPerPeer calls
    obtain ⟨before, after, hbefore, hafter, hkept⟩ := perform_report hvalid hok
    rw [hmax] at hkept
    refine ⟨before, after, _, hbefore, hafter, longestSuffix_limitInventory _ _, fun x => ?_⟩
    rw [hkept]

end TrackerStore

/-! ## The SQLite store -/

namespace SQLiteStore

variable {s s' : SQLiteStore} {b : BroadcastId} {p : PeerId}

/-- Every stored inventory is within the caps; its rows are distinct by their key. -/
def CappedInventories (s : SQLiteStore) : Prop :=
  ∀ b p, WithinCaps s.maxSegmentsPerPeer (s.getSegments b p)

/-- A call that writes no more segments than a capped report. -/
structure Retains (s s' : SQLiteStore) : Prop where
  maxSegmentsPerPeer : s'.maxSegmentsPerPeer = s.maxSegmentsPerPeer
  getSegments : ∀ b p, s'.getSegments b p ⊆ s.getSegments b p ∨
    ∃ merged, s'.getSegments b p ⊆ limitInventory merged s.maxSegmentsPerPeer

theorem CappedInventories.retains (h : s.CappedInventories) (hretains : s.Retains s') :
    s'.CappedInventories := by
  intro b p
  rw [hretains.maxSegmentsPerPeer]
  rcases hretains.getSegments b p with hsub | ⟨merged, hsub⟩
  · exact (h b p).of_subset (nodup_getSegments s' b p) hsub
  · exact (fits_limitInventoryTo merged _ _).of_subset (nodup_getSegments s' b p) hsub

namespace Retains

theorem of_peerSegments (hmax : s'.maxSegmentsPerPeer = s.maxSegmentsPerPeer)
    (hsegments : s'.peerSegments = s.peerSegments) : s.Retains s' where
  maxSegmentsPerPeer := hmax
  getSegments b p := by
    rw [getSegments_congr hsegments]
    exact Or.inl (List.Subset.refl _)

theorem refl (s : SQLiteStore) : s.Retains s := .of_peerSegments rfl rfl

theorem updatePeer (s : SQLiteStore) (b : BroadcastId) (p : PeerId) (f : PeerRow → PeerRow) :
    s.Retains (s.updatePeer b p f) :=
  .of_peerSegments (updatePeer_maxSegmentsPerPeer ..) (updatePeer_peerSegments ..)

theorem retirePeers (stale : List StalePeer) (s : SQLiteStore) :
    s.Retains (stale.foldl (fun s peer => s.retirePeer peer.broadcastId peer.peerId) s) where
  maxSegmentsPerPeer := by
    induction stale generalizing s with
    | nil => rfl
    | cons x rest ih => exact (ih _).trans (retirePeer_maxSegmentsPerPeer ..)
  getSegments b p := by
    apply Or.inl
    induction stale generalizing s with
    | nil => exact List.Subset.refl _
    | cons x rest ih =>
        intro y hy
        exact (mem_getSegments_retirePeer.mp (ih _ hy)).2

theorem withSegments (s : SQLiteStore) (t : Timestamp) (b : BroadcastId) (p : PeerId)
    (merged : List SegmentId) :
    s.Retains (s.withSegments t b p (limitInventory merged s.maxSegmentsPerPeer)) where
  maxSegmentsPerPeer := withSegments_maxSegmentsPerPeer ..
  getSegments b' p' := by
    by_cases hbp : b' = b ∧ p' = p
    · refine Or.inr ⟨merged, fun x hx => ?_⟩
      rwa [mem_getSegments_withSegments, if_pos hbp] at hx
    · refine Or.inl fun x hx => ?_
      rwa [mem_getSegments_withSegments, if_neg hbp] at hx

/-- Every call retains. -/
theorem next (s : SQLiteStore) (maxSegmentsPerPeer : ℕ) (t : Timestamp) (op : StoreOp) :
    s.Retains ((backend maxSegmentsPerPeer).next s t op) := by
  have hkept := Retains.refl s
  cases op with
  | registerBroadcast registration =>
      change s.Retains (s.registerBroadcast t registration).1
      unfold registerBroadcast
      cases s.findBroadcast registration.id <;> exact .of_peerSegments rfl rfl
  | unregisterBroadcast id =>
      refine stateAfter_writing (P := s.Retains) hkept fun s' hok => ?_
      change s.unregisterBroadcast id = _ at hok
      unfold unregisterBroadcast at hok
      cases hb : s.requireBroadcast id with
      | error e =>
          rw [hb] at hok
          exact absurd hok (by simp)
      | ok broadcast =>
          rw [hb] at hok
          obtain rfl := Except.ok.inj hok
          refine ⟨rfl, fun b p => Or.inl fun x hx => ?_⟩
          rw [mem_getSegments] at hx ⊢
          exact (OrderedSet.mem_eraseAll.mp hx).1
  | joinPeer b request options =>
      change s.Retains (stateAfter s (returning (fun x => .joined x.1 x.2)
        (s.joinPeerDetailed t b request options)))
      refine stateAfter_returning (P := s.Retains) hkept ?_
      rintro s' ⟨peer, already⟩ hok
      obtain ⟨-, -, rfl⟩ := joinPeerDetailed_ok.mp ⟨peer, already, hok⟩
      have htables := insertEmptyPeerStats_tables (s.upsertPeer b request.id
        (joinRow request (s.findPeer b request.id) t)) b request.id
      exact .of_peerSegments htables.2.2.2.2 htables.2.2.1
  | leavePeer b p =>
      refine stateAfter_writing (P := s.Retains) hkept fun s' hok => ?_
      obtain ⟨-, rfl⟩ := leavePeer_ok.mp hok
      exact .retirePeers [⟨b, p⟩] s
  | removeStalePeers maxAgeMs => exact .retirePeers _ s
  | reportSegments b p segments replace =>
      refine stateAfter_returning (P := s.Retains) hkept fun s' peer hok => ?_
      obtain ⟨-, rfl⟩ := reportSegments_ok.mp ⟨peer, hok⟩
      exact .withSegments ..
  | applySegmentDelta b p added removed =>
      refine stateAfter_returning (P := s.Retains) hkept fun s' peer hok => ?_
      obtain ⟨-, rfl⟩ := applySegmentDelta_ok.mp ⟨peer, hok⟩
      exact .withSegments ..
  | heartbeat b p heartbeat =>
      refine stateAfter_returning (P := s.Retains) hkept fun s' peer hok => ?_
      change s.heartbeat t b p heartbeat = _ at hok
      unfold SQLiteStore.heartbeat at hok
      cases hr : s.requirePeerRow b p with
      | error e =>
          rw [hr] at hok
          exact absurd hok (by simp)
      | ok row =>
          rw [hr] at hok
          obtain ⟨rfl, -⟩ := Prod.mk.inj (Except.ok.inj hok)
          exact .updatePeer ..
  | reportStats b p stats =>
      refine stateAfter_writing (P := s.Retains) hkept fun s' hok => ?_
      change s.reportStats t b p stats = _ at hok
      unfold SQLiteStore.reportStats at hok
      cases hr : s.requirePeerRow b p with
      | error e =>
          rw [hr] at hok
          exact absurd hok (by simp)
      | ok row =>
          rw [hr] at hok
          obtain rfl := Except.ok.inj hok
          exact .of_peerSegments (updatePeer_maxSegmentsPerPeer ..) (updatePeer_peerSegments ..)
  | reportPeerFailure b p report =>
      refine stateAfter_returning (P := s.Retains) hkept fun s' peer hok => ?_
      obtain ⟨row, _, _, -, rfl, -⟩ := reportPeerFailure_ok hok
      exact .of_peerSegments (updatePeer_maxSegmentsPerPeer ..) (updatePeer_peerSegments ..)
  | getBroadcast id => exact stateAfter_reading (P := s.Retains) hkept
  | listPeers b => exact stateAfter_reading (P := s.Retains) hkept
  | listPeersWithSegment b segment => exact stateAfter_reading (P := s.Retains) hkept
  | listPeerStats b => exact stateAfter_reading (P := s.Retains) hkept
  | getBroadcastStats b => exact stateAfter_reading (P := s.Retains) hkept
  | _ => exact hkept

end Retains

theorem cappedInventories_afterCalls (maxSegmentsPerPeer : ℕ)
    (calls : List (Timestamp × StoreOp)) :
    ((backend maxSegmentsPerPeer).afterCalls calls).CappedInventories ∧
      ((backend maxSegmentsPerPeer).afterCalls calls).maxSegmentsPerPeer = maxSegmentsPerPeer := by
  apply TrackerStoreBackend.afterCalls_induction (P := fun s : SQLiteStore =>
    s.CappedInventories ∧ s.maxSegmentsPerPeer = maxSegmentsPerPeer)
  · exact ⟨fun b p => fits_nil _ _, rfl⟩
  · rintro s t op ⟨hcapped, hmax⟩
    have hretains := Retains.next s maxSegmentsPerPeer t op
    exact ⟨hcapped.retains hretains, hretains.maxSegmentsPerPeer.trans hmax⟩

theorem getPeer_eq_some {peer : Peer} :
    s.getPeer b p = some peer ↔ ∃ row, s.findPeer b p = some row ∧
      mapPeer p row (s.getSegments b p) = peer :=
  Option.map_eq_some_iff

/-- What a report leaves of a peer, up to the order of the rows. -/
theorem perform_report {maxSegmentsPerPeer : ℕ} {t : Timestamp} {report : InventoryReport}
    {value : StoreValue}
    (hok : (backend maxSegmentsPerPeer).perform s t (report.op b p) = .ok (s', value)) :
    ∃ before after, s.getPeer b p = some before ∧ s'.getPeer b p = some after ∧
      ∀ x, x ∈ after.segments ↔
        x ∈ limitInventory (report.merged before.segments) s.maxSegmentsPerPeer := by
  have hwritten : ∀ {merged : List SegmentId}, (s.findPeer b p).isSome →
      s' = s.withSegments t b p (limitInventory merged s.maxSegmentsPerPeer) →
      merged = report.merged (s.getSegments b p) →
      ∃ before after, s.getPeer b p = some before ∧ s'.getPeer b p = some after ∧
        ∀ x, x ∈ after.segments ↔
          x ∈ limitInventory (report.merged before.segments) s.maxSegmentsPerPeer := by
    rintro merged hfound rfl rfl
    obtain ⟨row, hrow⟩ := Option.isSome_iff_exists.mp hfound
    have hafter : ((s.withSegments t b p (limitInventory (report.merged (s.getSegments b p))
        s.maxSegmentsPerPeer)).findPeer b p).isSome := by
      rw [findPeer_withSegments]
      exact hfound
    obtain ⟨row', hrow'⟩ := Option.isSome_iff_exists.mp hafter
    refine ⟨_, _, getPeer_eq_some.mpr ⟨row, hrow, rfl⟩, getPeer_eq_some.mpr ⟨row', hrow', rfl⟩,
      fun x => ?_⟩
    show x ∈ SQLiteStore.getSegments _ b p ↔ _
    rw [mem_getSegments_withSegments, if_pos ⟨rfl, rfl⟩]
    rfl
  have hnd := nodup_getSegments s b p
  cases report with
  | additive segments =>
      have hr : ∃ peer, s.reportSegments t b p segments false = .ok (s', peer) := returning_ok hok
      obtain ⟨⟨-, hfound⟩, hs'⟩ := reportSegments_ok.mp hr
      exact hwritten hfound hs' (mergedReport_additive hnd)
  | replace segments =>
      have hr : ∃ peer, s.reportSegments t b p segments true = .ok (s', peer) := returning_ok hok
      obtain ⟨⟨-, hfound⟩, hs'⟩ := reportSegments_ok.mp hr
      exact hwritten hfound hs' (mergedReport_replace _ segments)
  | delta added removed =>
      have hr : ∃ peer, s.applySegmentDelta t b p added removed = .ok (s', peer) :=
        returning_ok hok
      obtain ⟨hfound, hs'⟩ := applySegmentDelta_ok.mp hr
      exact hwritten hfound hs' (mergedDelta_eq hnd)

theorem keepsNewest (maxSegmentsPerPeer : ℕ) :
    (backend maxSegmentsPerPeer).KeepsNewest maxSegmentsPerPeer where
  withinCaps calls b p peer hpeer := by
    obtain ⟨hcapped, hmax⟩ := cappedInventories_afterCalls maxSegmentsPerPeer calls
    obtain ⟨row, -, rfl⟩ := getPeer_eq_some.mp hpeer
    have hinventory := hcapped b p
    rw [hmax] at hinventory
    exact ⟨nodup_getSegments _ b p, hinventory⟩
  reported calls t b p report s' value hok := by
    obtain ⟨-, hmax⟩ := cappedInventories_afterCalls maxSegmentsPerPeer calls
    obtain ⟨before, after, hbefore, hafter, hkept⟩ := perform_report hok
    rw [hmax] at hkept
    exact ⟨before, after, _, hbefore, hafter, longestSuffix_limitInventory _ _, hkept⟩

end SQLiteStore

/-- **Both stores keep the newest segments.** -/
theorem stores_keep_newest (maxSegmentsPerPeer : ℕ) :
    (TrackerStore.backend maxSegmentsPerPeer).KeepsNewest maxSegmentsPerPeer ∧
      (SQLiteStore.backend maxSegmentsPerPeer).KeepsNewest maxSegmentsPerPeer :=
  ⟨TrackerStore.keepsNewest maxSegmentsPerPeer, SQLiteStore.keepsNewest maxSegmentsPerPeer⟩

end OpenStreamGrid
