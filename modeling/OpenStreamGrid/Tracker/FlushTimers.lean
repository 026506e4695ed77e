import OpenStreamGrid.Tracker.HubLogs

/-!
# Pending batches are on their way

Every batch that is queued has a timer, until its timer fires while a flush of
the broadcast runs: then the flush is asked for another one. No handler
separates a batch from both, so none is stuck.
-/

namespace OpenStreamGrid

namespace TrackerWebSocketHub

/-- Its timer runs, or a flush runs and the next one is requested. -/
def OnItsWay (h : TrackerWebSocketHub) (b : BroadcastId) : Prop :=
  b ∈ h.timers ∨ b ∈ h.flushing ∧ b ∈ h.flushRequested

variable {h h' h'' : TrackerWebSocketHub} {b : BroadcastId}

/-- What is pending afterwards was pending before, with its timer if it had one,
or has a new timer. -/
structure KeepsTimers (h h' : TrackerWebSocketHub) : Prop where
  requested : h'.flushRequested = h.flushRequested
  timers : ∀ b ∈ h'.pendingInventory, b ∈ h'.timers ∨
    b ∈ h.pendingInventory ∧ (b ∈ h.timers → b ∈ h'.timers)

theorem KeepsTimers.of_eq (hrequested : h'.flushRequested = h.flushRequested)
    (htimers : h'.timers = h.timers) (hpending : ∀ b ∈ h'.pendingInventory, b ∈ h.pendingInventory) :
    KeepsTimers h h' where
  requested := hrequested
  timers b hb := Or.inr ⟨hpending b hb, fun ht => htimers ▸ ht⟩

theorem KeepsTimers.trans (hk : KeepsTimers h h') (hk' : KeepsTimers h' h'') :
    KeepsTimers h h'' where
  requested := hk'.requested.trans hk.requested
  timers b hb := by
    rcases hk'.timers b hb with ht | ⟨hb', ht'⟩
    · exact Or.inl ht
    · rcases hk.timers b hb' with ht | ⟨hb, ht⟩
      · exact Or.inl (ht' ht)
      · exact Or.inr ⟨hb, fun hmem => ht' (ht hmem)⟩

theorem keepsTimers_peerLeft (h : TrackerWebSocketHub) (b : BroadcastId) (p : PeerId) :
    KeepsTimers h (h.peerLeft b p) := by
  have hmodified : ∀ b' ∈ h.pendingInventory.modify b fun updates => updates.delete p,
      b' ∈ h.pendingInventory := fun _ hb => OrderedMap.mem_modify.mp hb
  unfold peerLeft
  dsimp only
  split <;> exact .of_eq rfl rfl hmodified

theorem keepsTimers_peersLeft (removed : List StalePeer) : ∀ h : TrackerWebSocketHub,
    KeepsTimers h (h.peersLeft removed) := by
  induction removed with
  | nil => exact fun _ => .of_eq rfl rfl fun _ => id
  | cons x rest ih => exact fun h => (h.keepsTimers_peerLeft ..).trans (ih _)

theorem keepsTimers_dropSubscribers (dropped : List SocketId) : ∀ h : TrackerWebSocketHub,
    KeepsTimers h (dropped.foldl dropSubscriber h) := by
  induction dropped with
  | nil => exact fun _ => .of_eq rfl rfl fun _ => id
  | cons s rest ih =>
      intro h
      obtain ⟨index, heq⟩ := h.dropSubscriber_eq s
      refine KeepsTimers.trans ?_ (ih (h.dropSubscriber s))
      rw [heq]
      exact .of_eq rfl rfl fun _ => id

/-- Only the timer of the removed broadcast is cleared, with its batch. -/
theorem keepsTimers_broadcastRemoved (h : TrackerWebSocketHub) (b : BroadcastId) :
    KeepsTimers h (h.broadcastRemoved b) := by
  have hcleared : KeepsTimers h
      { h with
        timers := if b ∈ h.pendingInventory then h.timers.erase b else h.timers
        pendingInventory := h.pendingInventory.delete b
        neighborViews := h.neighborViews.map fun v : NeighborViews => v.removeBroadcast b } := by
    refine ⟨rfl, fun b' hb' => ?_⟩
    obtain ⟨hb', hne⟩ := OrderedMap.mem_delete.mp hb'
    refine Or.inr ⟨hb', fun ht => ?_⟩
    dsimp only
    split_ifs
    · exact (List.mem_erase_of_ne hne).mpr ht
    · exact ht
  exact hcleared.trans (keepsTimers_dropSubscribers _ _)

/-- Queueing starts a timer with every new batch. -/
theorem keepsTimers_queueInventory (h : TrackerWebSocketHub) (m : InventoryMessage) :
    KeepsTimers h (h.queueInventory m) := by
  unfold queueInventory
  cases hpending : h.pendingInventory.get? m.broadcastId with
  | some updates =>
      refine ⟨rfl, fun b hb => Or.inr ⟨?_, id⟩⟩
      rcases OrderedMap.mem_set.mp hb with hb | rfl
      · exact hb
      · exact OrderedMap.mem_of_get? hpending
  | none =>
      refine ⟨rfl, fun b hb => ?_⟩
      rcases OrderedMap.mem_set.mp hb with hb | rfl
      · exact Or.inr ⟨hb, List.mem_append_left _⟩
      · exact Or.inl (List.mem_append_right _ List.mem_cons_self)

theorem keepsTimers_publishInventory (h : TrackerWebSocketHub) (m : InventoryMessage) :
    KeepsTimers h (h.publishInventory m) := by
  unfold publishInventory
  split
  · exact .of_eq rfl rfl fun _ => id
  · dsimp only
    split_ifs
    · refine KeepsTimers.trans ?_ (keepsTimers_queueInventory _ m)
      exact .of_eq rfl rfl fun _ => id
    · exact .of_eq rfl rfl fun _ => id

theorem KeepsTimers.withStore {store : TrackerStore}
    (hk : KeepsTimers { h with store := store } h') : KeepsTimers h h' :=
  ⟨hk.requested, hk.timers⟩

theorem Handles.keepsTimers (hsound : h.Sound) {e : HubEvent} (hh : Handles h e h') :
    KeepsTimers h h' := by
  cases hh with
  | stored => exact .of_eq rfl rfl fun _ => id
  | joined =>
      unfold peerJoined
      dsimp only
      split <;> exact .of_eq rfl rfl fun _ => id
  | left => exact .withStore (keepsTimers_peersLeft _ _)
  | removed => exact .withStore (keepsTimers_broadcastRemoved _ _)
  | connected => exact .of_eq rfl rfl fun _ => id
  | closing => exact .of_eq rfl rfl fun _ => id
  | closed s =>
      obtain ⟨index, heq⟩ := h.removeSocket_eq s
      rw [heq]
      exact .of_eq rfl rfl fun _ => id
  | @subscribed s admitted t b p features _ _ _ hok =>
      obtain ⟨-, views, out, batch, view, peers, -, -, rfl⟩ :=
        handleSubscribe_ok (fun _ => Set.univ) hsound (fun _ _ _ => trivial) hok
      obtain ⟨index, created, heq⟩ := setSubscription_eq
        (({ h with neighborViews := views } : TrackerWebSocketHub).deliver out) s
        ⟨b, p, batch, view⟩
      rw [heq]
      exact .of_eq rfl rfl fun _ => id
  | reported hok =>
      unfold handleReport at hok
      dsimp only at hok
      split_ifs at hok
      split at hok
      · cases hok
      · obtain rfl := Except.ok.inj hok
        exact .of_eq rfl rfl fun _ => id
      · obtain rfl := Except.ok.inj hok
        exact .withStore (keepsTimers_publishInventory _ _)

/-- Between two handlers every pending batch is on its way. -/
def Armed (h : TrackerWebSocketHub) : Prop := ∀ b ∈ h.pendingInventory, h.OnItsWay b

/-- So it is while a flush of `b` starts, but for the batch that it takes. -/
def ArmedBut (b : BroadcastId) (h : TrackerWebSocketHub) : Prop :=
  ∀ b' ∈ h.pendingInventory, b' ≠ b → h.OnItsWay b'

theorem Armed.keepsTimers (harmed : h.Armed) (hk : KeepsTimers h h')
    (hflushing : h'.flushing = h.flushing) : h'.Armed := by
  intro b hb
  rcases hk.timers b hb with ht | ⟨hb, ht⟩
  · exact Or.inl ht
  · rcases harmed b hb with hmem | ⟨hf, hr⟩
    · exact Or.inl (ht hmem)
    · exact Or.inr ⟨hflushing ▸ hf, hk.requested ▸ hr⟩

/-- A slice schedules the next one or ends the flush of its own broadcast. -/
theorem ArmedBut.sendSlice (harmed : ArmedBut b h) (job : FlushJob) :
    ArmedBut b (h.sendSlice b job).1 := by
  obtain ⟨sockets, ⟨-, heq⟩ | ⟨-, heq⟩⟩ := h.sendSlice_cases b job
  · rw [heq]
    exact harmed
  · rw [heq]
    intro b' hb' hne
    exact (harmed b' hb' hne).imp_right fun hway => ⟨OrderedSet.mem_erase.mpr ⟨hway.1, hne⟩, hway.2⟩

theorem pendingInventory_sendSlice (h : TrackerWebSocketHub) (b : BroadcastId) (job : FlushJob) :
    (h.sendSlice b job).1.pendingInventory = h.pendingInventory ∧
      (h.sendSlice b job).1.timers = h.timers ∧
      (h.sendSlice b job).1.flushRequested = h.flushRequested := by
  obtain ⟨sockets, ⟨-, heq⟩ | ⟨-, heq⟩⟩ := h.sendSlice_cases b job <;> rw [heq] <;>
    exact ⟨rfl, rfl, rfl⟩

theorem flushing_of_running {job : FlushJob} (hrunning : ¬ (h.sendSlice b job).2 = true) :
    (h.sendSlice b job).1.flushing = h.flushing := by
  unfold TrackerWebSocketHub.sendSlice at hrunning ⊢
  dsimp only at hrunning ⊢
  split_ifs at hrunning ⊢
  · rfl
  · exact absurd rfl hrunning

/-- The flush takes what is pending for its broadcast. -/
theorem not_mem_pending_startFlush (hsound : h.Sound) (b : BroadcastId) :
    b ∉ (h.startFlush b).1.pendingInventory := by
  have htaken : b ∉ h.pendingInventory.delete b := fun hb => (OrderedMap.mem_delete.mp hb).2 rfl
  obtain ⟨out, -, ⟨heq, -⟩ | ⟨pending, subscribers, -, -, heq⟩⟩ := startFlush_cases hsound b
  · rw [heq]
    exact htaken
  · rw [heq, (pendingInventory_sendSlice ..).1]
    exact htaken

theorem ArmedBut.startFlush (harmed : ArmedBut b h) (hsound : h.Sound) :
    (h.startFlush b).1.Armed := by
  have hnone := not_mem_pending_startFlush hsound b
  suffices hbut : ArmedBut b (h.startFlush b).1 from fun b' hb' => hbut b' hb' (by
    rintro rfl
    exact hnone hb')
  have htaken : ArmedBut b (h.taken b) := fun b' hb' hne =>
    harmed b' (OrderedMap.mem_delete.mp hb').1 hne
  obtain ⟨out, -, ⟨heq, -⟩ | ⟨pending, subscribers, -, -, heq⟩⟩ := startFlush_cases hsound b
  · rw [heq]
    exact htaken
  · rw [heq]
    refine ArmedBut.sendSlice (fun b' hb' hne => ?_) _
    exact (htaken b' hb' hne).imp_right fun hway =>
      ⟨OrderedSet.mem_insert.mpr (Or.inl hway.1), hway.2⟩

/-- The end of a flush: the next one starts if it was requested. -/
theorem ArmedBut.flushRequestedNext (harmed : ArmedBut b h) (hsound : h.Sound)
    (hown : b ∈ h.pendingInventory → b ∉ h.flushRequested → b ∈ h.timers) :
    (h.flushRequestedNext b).Armed := by
  unfold TrackerWebSocketHub.flushRequestedNext
  split_ifs with hrequested
  · refine ArmedBut.startFlush (fun b' hb' hne => ?_) (hsound.flushing _ _ _ _ _)
    exact (harmed b' hb' hne).imp_right fun hway =>
      ⟨hway.1, OrderedSet.mem_erase.mpr ⟨hway.2, hne⟩⟩
  · intro b' hb'
    by_cases hne : b' = b
    · rw [hne] at hb' ⊢
      exact Or.inl (hown hb' hrequested)
    · exact harmed b' hb' hne

theorem Sound.startFlush (hsound : h.Sound) (b : BroadcastId) : (h.startFlush b).1.Sound := by
  have htaken : (h.taken b).Sound := hsound.flushing _ _ _ _ _
  obtain ⟨out, -, ⟨heq, -⟩ | ⟨pending, subscribers, -, -, heq⟩⟩ := startFlush_cases hsound b
  · rw [heq]
    exact htaken.deliver out
  · rw [heq]
    exact Sound.sendSlice ((htaken.deliver out).flushing _ _ _ _ _) b _

theorem Armed.flush (harmed : h.Armed) (hsound : h.Sound) (heff : FlushEffect h h') :
    h'.Armed := by
  cases heff with
  | batchTimer b =>
      have hbut : ArmedBut b { h with timers := h.timers.erase b } := fun b' hb' hne =>
        (harmed b' hb').imp_left (List.mem_erase_of_ne hne).mpr
      have hsound' : Sound { h with timers := h.timers.erase b } := hsound.flushing _ _ _ _ _
      unfold flushInventory
      split_ifs with hflushing
      · intro b' hb'
        by_cases hne : b' = b
        · exact Or.inr ⟨hne ▸ hflushing, OrderedSet.mem_insert.mpr (Or.inr hne)⟩
        · exact (hbut b' hb' hne).imp_right fun hway =>
            ⟨hway.1, OrderedSet.mem_insert.mpr (Or.inl hway.2)⟩
      · have hstarted := hbut.startFlush hsound'
        dsimp only
        split_ifs
        · refine ArmedBut.flushRequestedNext (fun b' hb' _ => hstarted b' hb')
            (hsound'.startFlush b) fun hb => absurd hb (not_mem_pending_startFlush hsound' b)
        · exact hstarted
  | @flushTurn b job hjob =>
      have hsound' : Sound { h with immediates := h.immediates.delete b } :=
        hsound.flushing _ _ _ _ _
      have hbut : ArmedBut b { h with immediates := h.immediates.delete b } :=
        fun b' hb' _ => harmed b' hb'
      obtain ⟨hpending, htimers, hrequested⟩ :=
        pendingInventory_sendSlice { h with immediates := h.immediates.delete b } b job
      unfold sendViewerBatches
      dsimp only
      split_ifs with hended
      · refine (hbut.sendSlice job).flushRequestedNext (hsound'.sendSlice b job) fun hb hnot => ?_
        rw [hpending] at hb
        rw [hrequested] at hnot
        rw [htimers]
        exact (harmed b hb).resolve_right fun hway => hnot hway.2
      · intro b' hb'
        rw [hpending] at hb'
        unfold OnItsWay
        rw [htimers, hrequested, flushing_of_running hended]
        exact harmed b' hb'

theorem Armed.step (harmed : h.Armed) (hsteady : h.Steady) {e : HubEvent}
    (hstep : h.step e = some h') : h'.Armed := by
  cases hflushes : e.flushes with
  | false =>
      have hh := step_handles hsteady.keyed hflushes hstep
      exact harmed.keepsTimers (hh.keepsTimers hsteady.toSound)
        (hh.effect hsteady.toSound).scheduling.2
  | true => exact harmed.flush hsteady.toSound (step_flushes hflushes hstep)

end TrackerWebSocketHub

end OpenStreamGrid
