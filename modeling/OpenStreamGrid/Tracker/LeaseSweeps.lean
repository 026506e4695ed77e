import OpenStreamGrid.Lib.IsoParsing
import OpenStreamGrid.Tracker.StoreInterchange
import OpenStreamGrid.Tracker.StoreOperations

/-!
# Sweeping broadcasts whose lease has run out

A broadcast that the origin registers carries in its metadata until when it may
stay without being registered again. The tracker's cleanup retires peers that are
gone and then unregisters the broadcasts whose lease has run out.
-/

namespace OpenStreamGrid

/-- Until when the origin has leased a broadcast; an empty text is no lease. -/
def Broadcast.leaseEnd? (other : String → Option ℤ) (broadcast : Broadcast) : Option ℤ :=
  broadcast.metadata.bind fun metadata =>
    if metadata.get? "owner" = some "origin" then
      (metadata.get? "leaseExpiresAt").bind fun lease =>
        if lease = "" then none else IsoTime.dateParse other lease
    else none

/-- Nothing is at or before what does not parse. -/
def Broadcast.LeaseRunOut (other : String → Option ℤ) (now : Timestamp) (broadcast : Broadcast) :
    Prop :=
  ∃ lease ∈ broadcast.leaseEnd? other, lease ≤ now

instance (other : String → Option ℤ) (now : Timestamp) (broadcast : Broadcast) :
    Decidable (broadcast.LeaseRunOut other now) :=
  inferInstanceAs (Decidable (∃ lease ∈ broadcast.leaseEnd? other, lease ≤ now))

namespace TrackerStore

/-- One round of the loop over the listed broadcasts. -/
def sweepBroadcast (other : String → Option ℤ) (now : Timestamp) (s : TrackerStore)
    (broadcast : Broadcast) : Except StoreError TrackerStore :=
  if broadcast.LeaseRunOut other now then s.unregisterBroadcast broadcast.id else .ok s

def sweepBroadcasts (other : String → Option ℤ) (now : Timestamp) (s : TrackerStore) :
    Except StoreError TrackerStore :=
  s.listBroadcasts.foldlM (sweepBroadcast other now) s

/-- `removeStalePeers` of the server. -/
def cleanUp (other : String → Option ℤ) (stalePeerMs : ℕ) (now : Timestamp) (s : TrackerStore) :
    Except StoreError TrackerStore :=
  (s.removeStalePeers now stalePeerMs).1.sweepBroadcasts other now

/-! ## The records of the broadcasts -/

variable {s s' : TrackerStore} {id : BroadcastId} {now : Timestamp}
  {other : String → Option ℤ}

def record? (s : TrackerStore) (id : BroadcastId) : Option Broadcast :=
  (s.broadcasts.get? id).map BroadcastState.broadcast

/-- Every record is stored under its own id. -/
def Named (s : TrackerStore) : Prop := ∀ id broadcast, s.record? id = some broadcast → broadcast.id = id

theorem mem_listBroadcasts_iff {broadcast : Broadcast} :
    broadcast ∈ s.listBroadcasts ↔ ∃ id, s.record? id = some broadcast := by
  unfold listBroadcasts record?
  simp only [List.mem_map, OrderedMap.mem_values_iff, Option.map_eq_some_iff]
  constructor
  · rintro ⟨state, ⟨id, hid⟩, rfl⟩
    exact ⟨id, state, hid, rfl⟩
  · rintro ⟨id, state, hid, rfl⟩
    exact ⟨state, ⟨id, hid⟩, rfl⟩

/-- What a registration leaves of the record that it meets. -/
def registeredRecord (existing : Option Broadcast) (now : Timestamp)
    (registration : BroadcastRegistration) : Broadcast where
  toBroadcastRegistration :=
    { registration with
      metadata := registration.metadata.orElse fun _ => existing.bind fun old => old.metadata }
  createdAt := (existing.map Broadcast.createdAt).getD now
  updatedAt := now

theorem record?_registerBroadcast (hnamed : s.Named) (registration : BroadcastRegistration)
    (id : BroadcastId) :
    (s.registerBroadcast now registration).1.record? id =
      if id = registration.id then
        some (registeredRecord (s.record? registration.id) now registration)
      else s.record? id := by
  unfold registerBroadcast record?
  rcases hget : s.broadcasts.get? registration.id with _ | existing
  · dsimp only
    rw [OrderedMap.get?_set]
    split_ifs
    · obtain ⟨_, _, metadata⟩ := registration
      cases metadata <;> rfl
    · rfl
  · have hid : existing.broadcast.id = registration.id :=
      hnamed _ _ (Option.map_eq_some_iff.mpr ⟨existing, hget, rfl⟩)
    dsimp only
    rw [OrderedMap.get?_set]
    split_ifs
    · simp [registeredRecord, hid]
    · rfl

theorem record?_retirePeers (stale : List StalePeer) (s : TrackerStore) (id : BroadcastId) :
    (s.retirePeers stale).record? id = s.record? id :=
  broadcast_retirePeers id stale s

theorem record?_setPeer {state : BroadcastState} {b : BroadcastId}
    (hs : s.broadcasts.get? b = some state) (p : PeerId) (peerState : PeerState)
    (id : BroadcastId) : (s.setPeer b state p peerState).record? id = s.record? id := by
  unfold record? setPeer
  dsimp only
  rw [OrderedMap.get?_set]
  split_ifs with hb
  · rw [hb, hs]
    rfl
  · rfl

/-- A call that neither registers nor unregisters a broadcast leaves its record as it is. -/
theorem CallEffect.record? {op : StoreOp} (h : CallEffect s now op s')
    (hregister : ∀ registration, op = .registerBroadcast registration → registration.id ≠ id)
    (hunregister : op ≠ .unregisterBroadcast id) : s'.record? id = s.record? id := by
  cases h with
  | kept => rfl
  | registered registration =>
      unfold TrackerStore.record? registerBroadcast
      cases s.broadcasts.get? registration.id <;> dsimp only <;>
        rw [OrderedMap.get?_set, if_neg (hregister registration rfl).symm]
  | unregistered b =>
      have hb : id ≠ b := fun heq => hunregister (heq ▸ rfl)
      unfold TrackerStore.record?
      rw [OrderedMap.get?_delete, if_neg hb]
  | left b p => exact record?_retirePeers _ s id
  | swept maxAgeMs => exact record?_retirePeers _ s id
  | joined hs => exact record?_setPeer hs _ _ id
  | written _ hs => exact record?_setPeer hs _ _ id

theorem named_new (maxSegmentsPerPeer : ℕ) : (new maxSegmentsPerPeer).Named := by
  rintro id broadcast ⟨⟩

theorem named_registerBroadcast (hnamed : s.Named) (registration : BroadcastRegistration) :
    (s.registerBroadcast now registration).1.Named := by
  intro id broadcast h
  rw [record?_registerBroadcast hnamed] at h
  split_ifs at h with hid
  · obtain rfl := Option.some.inj h
    exact hid.symm
  · exact hnamed id broadcast h

theorem record?_delete (b id : BroadcastId) :
    record? { s with broadcasts := s.broadcasts.delete b } id =
      if id = b then none else s.record? id := by
  unfold record?
  rw [OrderedMap.get?_delete]
  split_ifs <;> rfl

theorem named_delete (hnamed : s.Named) (b : BroadcastId) :
    Named { s with broadcasts := s.broadcasts.delete b } := by
  intro id broadcast h
  rw [record?_delete] at h
  split_ifs at h
  exact hnamed id broadcast h

theorem CallEffect.named {op : StoreOp} (h : CallEffect s now op s') (hnamed : s.Named) :
    s'.Named := by
  have hsame : (∀ id, s'.record? id = s.record? id) → s'.Named :=
    fun hsame id broadcast hs' => hnamed id broadcast (hsame id ▸ hs')
  cases h with
  | kept => exact hnamed
  | registered registration => exact named_registerBroadcast hnamed registration
  | unregistered b => exact named_delete hnamed b
  | left b p => exact hsame (record?_retirePeers _ s)
  | swept maxAgeMs => exact hsame (record?_retirePeers _ s)
  | joined hs => exact hsame (record?_setPeer hs _ _)
  | written _ hs => exact hsame (record?_setPeer hs _ _)

/-! ## What a sweep does -/

theorem foldlM_sweepBroadcast : ∀ (entries : List (BroadcastId × BroadcastState)) (s : TrackerStore),
    (entries.map Prod.fst).Nodup →
    (∀ entry ∈ entries, entry.1 ∈ s.broadcasts ∧ entry.2.broadcast.id = entry.1) →
    (entries.map fun entry => entry.2.broadcast).foldlM (sweepBroadcast other now) s =
      .ok { s with
        broadcasts := entries.foldl (fun kept entry =>
          if entry.2.broadcast.LeaseRunOut other now then kept.delete entry.1 else kept)
          s.broadcasts } := by
  intro entries
  induction entries with
  | nil => exact fun s _ _ => rfl
  | cons entry rest ih =>
      intro s hnodup hstored
      obtain ⟨hfresh, hrest⟩ := List.nodup_cons.mp hnodup
      obtain ⟨hmem, hid⟩ := hstored entry List.mem_cons_self
      rw [List.map_cons, List.foldlM_cons, List.foldl_cons]
      unfold sweepBroadcast
      split_ifs with hout
      · have hok : s.unregisterBroadcast entry.2.broadcast.id =
            .ok { s with broadcasts := s.broadcasts.delete entry.1 } := by
          rw [hid]
          exact if_pos hmem
        rw [hok]
        refine ih _ hrest fun later hlater => ⟨?_, (hstored later (List.mem_cons_of_mem _ hlater)).2⟩
        refine OrderedMap.mem_delete.mpr
          ⟨(hstored later (List.mem_cons_of_mem _ hlater)).1, fun heq => hfresh ?_⟩
        exact List.mem_map.mpr ⟨later, hlater, heq⟩
      · exact ih s hrest fun later hlater => hstored later (List.mem_cons_of_mem _ hlater)

/-- **A sweep does not throw**, and leaves the records whose lease has not run out. -/
theorem sweepBroadcasts_ok (hnamed : s.Named) (other : String → Option ℤ) (now : Timestamp) :
    ∃ swept, s.sweepBroadcasts other now = .ok swept ∧
    ∀ id, swept.record? id =
      (s.record? id).filter fun broadcast => ¬ broadcast.LeaseRunOut other now := by
  have hlist : s.listBroadcasts = s.broadcasts.entries.map fun entry => entry.2.broadcast :=
    List.map_map ..
  have hok : s.sweepBroadcasts other now = .ok { s with
      broadcasts := s.broadcasts.entries.foldl (fun kept entry =>
        if entry.2.broadcast.LeaseRunOut other now then kept.delete entry.1 else kept)
        s.broadcasts } := by
    unfold sweepBroadcasts
    rw [hlist]
    refine foldlM_sweepBroadcast s.broadcasts.entries s s.broadcasts.nodupKeys fun entry hentry => ?_
    have hget := OrderedMap.get?_eq_some_iff.mpr hentry
    exact ⟨OrderedMap.mem_of_get? hget,
      hnamed _ _ (Option.map_eq_some_iff.mpr ⟨entry.2, hget, rfl⟩)⟩
  refine ⟨_, hok, fun id => ?_⟩
  unfold record?
  rw [OrderedMap.get?_foldl_deleteIf s.broadcasts
    (fun entry => entry.2.broadcast.LeaseRunOut other now)]
  cases s.broadcasts.get? id with
  | none => rfl
  | some state =>
      rw [Option.map_some]
      by_cases hout : state.broadcast.LeaseRunOut other now
      · rw [Option.filter_some_neg (by simpa using hout), Option.filter_some_neg (by simpa using hout)]
        rfl
      · rw [Option.filter_some_pos (by simpa using hout), Option.filter_some_pos (by simpa using hout)]
        rfl

theorem cleanUp_ok (hnamed : s.Named) (other : String → Option ℤ) (stalePeerMs : ℕ)
    (now : Timestamp) :
    ∃ swept, s.cleanUp other stalePeerMs now = .ok swept ∧
      ∀ id, swept.record? id =
        (s.record? id).filter fun broadcast => ¬ broadcast.LeaseRunOut other now := by
  unfold cleanUp
  rw [removeStalePeers_eq]
  have hsame := record?_retirePeers (s.stalePeers (now - stalePeerMs)) s
  have hnamed' : (s.retirePeers (s.stalePeers (now - stalePeerMs))).Named :=
    fun id broadcast h => hnamed id broadcast (hsame id ▸ h)
  obtain ⟨swept, hok, hrecord⟩ := sweepBroadcasts_ok hnamed' other now
  exact ⟨swept, hok, fun id => hsame id ▸ hrecord id⟩

/-- What is left after the cleanup was there before, under a lease that had not run out. -/
theorem record?_of_cleanUp (hnamed : s.Named) (stalePeerMs : ℕ) {broadcast : Broadcast}
    (h : (stateAfter s ((s.cleanUp other stalePeerMs now).map (·, ()))).record? id =
      some broadcast) :
    s.record? id = some broadcast ∧ ¬ broadcast.LeaseRunOut other now := by
  obtain ⟨swept, hok, hrecord⟩ := cleanUp_ok hnamed other stalePeerMs now
  rw [hok] at h
  change swept.record? id = some broadcast at h
  rw [hrecord, Option.filter_eq_some_iff] at h
  exact ⟨h.1, by simpa using h.2⟩

theorem named_cleanUp (hnamed : s.Named) (stalePeerMs : ℕ) :
    (stateAfter s ((s.cleanUp other stalePeerMs now).map (·, ()))).Named :=
  fun id broadcast h => hnamed id broadcast (record?_of_cleanUp hnamed stalePeerMs h).1

/-- The store after a request to unregister a broadcast, found or not. -/
theorem record?_of_unregister {b : BroadcastId} {broadcast : Broadcast}
    (h : (stateAfter s ((s.unregisterBroadcast b).map (·, ()))).record? id = some broadcast) :
    s.record? id = some broadcast := by
  unfold unregisterBroadcast at h
  split_ifs at h
  · change record? { s with broadcasts := s.broadcasts.delete b } id = _ at h
    rw [record?_delete] at h
    split_ifs at h
    exact h
  · exact h

end TrackerStore

end OpenStreamGrid
