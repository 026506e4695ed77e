import OpenStreamGrid.Tracker.HubSockets

/-!
# What a flush sends

A flush works on a snapshot of the pending changes and serves the neighbor-view
sockets slice by slice, each with the updates of the peers in its view at that
time. What a served socket is sent composes to exactly the snapshot's update of
every peer it sees.
-/

namespace OpenStreamGrid

/-! ## Batches of updates -/

theorem foldl_effect (q : PeerId) (us : List SegmentInventoryUpdate) :
    ∀ o : Overwrite SegmentId,
      us.foldl (fun (o : Overwrite SegmentId) u => o.andThen (u.effect q)) o
        = o.andThen (batchEffect us q) := by
  induction us with
  | nil => exact fun o => (Overwrite.andThen_keep o).symm
  | cons u rest ih =>
      intro o
      have hcons : batchEffect (u :: rest) q
          = (Overwrite.keep.andThen (u.effect q)).andThen (batchEffect rest q) := ih _
      rw [List.foldl_cons, ih, hcons, Overwrite.keep_andThen, Overwrite.andThen_assoc]

theorem batchEffect_append (us us' : List SegmentInventoryUpdate) (q : PeerId) :
    batchEffect (us ++ us') q = (batchEffect us q).andThen (batchEffect us' q) := by
  rw [batchEffect, List.foldl_append, foldl_effect]
  rfl

theorem batchEffect_cons (u : SegmentInventoryUpdate) (us : List SegmentInventoryUpdate)
    (q : PeerId) : batchEffect (u :: us) q = (u.effect q).andThen (batchEffect us q) := by
  rw [batchEffect, List.foldl_cons, foldl_effect, Overwrite.keep_andThen]

/-- Updates of other peers have no effect. -/
theorem batchEffect_filter (us : List SegmentInventoryUpdate) (q : PeerId) :
    batchEffect us q = batchEffect (us.filter fun u => decide (u.peerId = q)) q := by
  induction us with
  | nil => rfl
  | cons u rest ih =>
      by_cases hu : u.peerId = q
      · rw [List.filter_cons_of_pos (by simpa using hu), batchEffect_cons, batchEffect_cons, ih]
      · have hkeep : u.effect q = Overwrite.keep := by
          cases u <;> exact if_neg hu
        rw [List.filter_cons_of_neg (by simpa using hu), batchEffect_cons, hkeep,
          Overwrite.keep_andThen, ih]

/-- The batches of a list, one after another, are the list. -/
theorem flatten_batches {α : Type} (xs : List α) {k : ℕ} (hk : 0 < k) :
    ((List.range ((xs.length + (k - 1)) / k)).map fun i => (xs.drop (i * k)).take k).flatten
      = xs := by
  have htake : ∀ n, ((List.range n).map fun i => (xs.drop (i * k)).take k).flatten
      = xs.take (n * k) := by
    intro n
    induction n with
    | zero => simp
    | succ n ih =>
        rw [List.range_succ, List.map_append, List.flatten_append, ih, Nat.succ_mul,
          List.take_add]
        simp
  rw [htake]
  refine List.take_of_length_le ?_
  have := Nat.div_add_mod (xs.length + (k - 1)) k
  have := Nat.mod_lt (xs.length + (k - 1)) hk
  rw [Nat.mul_comm]
  omega

/-- The updates are filed under the peers they are about. -/
def KeyedUpdates (updates : OrderedMap PeerId SegmentInventoryUpdate) : Prop :=
  ∀ q u, updates.get? q = some u → u.peerId = q

/-- What the snapshot of a flush says of one peer. -/
def updateEffect (updates : OrderedMap PeerId SegmentInventoryUpdate) (q : PeerId) :
    Overwrite SegmentId :=
  ((updates.get? q).map fun u => u.effect q).getD .keep

theorem batchEffect_toList (found : Option SegmentInventoryUpdate) (q : PeerId) :
    batchEffect found.toList q = (found.map fun u => u.effect q).getD .keep := by
  cases found with
  | none => rfl
  | some u => exact Overwrite.keep_andThen _

/-- Walking the view finds the update of every peer in it. -/
theorem batchEffect_of_view {updates : OrderedMap PeerId SegmentInventoryUpdate}
    (hkeyed : KeyedUpdates updates) (view : OrderedSet PeerId) {q : PeerId} (hq : q ∈ view) :
    batchEffect (view.toList.filterMap updates.get?) q = updateEffect updates q := by
  rw [batchEffect_filter, updateEffect, ← batchEffect_toList]
  congr 1
  obtain ⟨xs, hnd⟩ := view
  change (xs.filterMap updates.get?).filter _ = _
  have hmem : q ∈ xs := hq
  clear hq
  -- only the entry of `q` passes, and it stands once
  have hother : ∀ ys : List PeerId, q ∉ ys →
      (ys.filterMap updates.get?).filter (fun u => decide (u.peerId = q)) = [] := by
    intro ys hys
    refine List.filter_eq_nil_iff.mpr fun u hu => ?_
    obtain ⟨y, hy, hget⟩ := List.mem_filterMap.mp hu
    have := hkeyed y u hget
    simp only [decide_eq_true_eq]
    rintro rfl
    exact hys (this ▸ hy)
  induction xs with
  | nil => exact absurd hmem List.not_mem_nil
  | cons y rest ih =>
      obtain ⟨hy, hrest⟩ := List.nodup_cons.mp hnd
      by_cases hyq : y = q
      · subst hyq
        cases hget : updates.get? y with
        | none => rw [List.filterMap_cons_none hget, hother rest hy]; rfl
        | some u =>
            have hu : u.peerId = y := hkeyed y u hget
            rw [List.filterMap_cons_some hget, List.filter_cons_of_pos (by simpa using hu),
              hother rest hy]
            rfl
      · have hin : q ∈ rest := (List.mem_cons.mp hmem).resolve_left (Ne.symm hyq)
        rw [← ih hrest hin]
        cases hget : updates.get? y with
        | none => rw [List.filterMap_cons_none hget]
        | some u =>
            have hu : ¬ u.peerId = q := fun e => hyq ((hkeyed y u hget).symm.trans e)
            rw [List.filterMap_cons_some hget, List.filter_cons_of_neg (by simpa using hu)]

/-- Filtering the updates by the view finds them as well. -/
theorem batchEffect_of_updates {updates : OrderedMap PeerId SegmentInventoryUpdate}
    (hkeyed : KeyedUpdates updates) (view : OrderedSet PeerId) {q : PeerId} (hq : q ∈ view) :
    batchEffect (updates.values.filter fun u => decide (u.peerId ∈ view)) q
      = updateEffect updates q := by
  rw [batchEffect_filter, updateEffect, ← batchEffect_toList, List.filter_filter]
  congr 1
  have hfilter : updates.values.filter
        (fun u => decide (u.peerId = q) && decide (u.peerId ∈ view))
      = (updates.entries.filter fun e => decide (e.1 = q)).map Prod.snd := by
    unfold OrderedMap.values
    rw [List.filter_map]
    congr 1
    refine List.filter_congr fun e he => ?_
    have hid : e.2.peerId = e.1 := hkeyed e.1 e.2 (OrderedMap.get?_eq_some_iff.mpr he)
    by_cases heq : e.1 = q
    · simp [hid, heq, hq]
    · simp [hid, heq]
  rw [hfilter, OrderedMap.entries_filter_key]
  cases updates.get? q <;> rfl

namespace TrackerWebSocketHub

variable {h h' : TrackerWebSocketHub} {s : SocketId} {b : BroadcastId} {p : PeerId}

/-! ## What one socket is sent -/

theorem messagesTo_sendBatch (s : SocketId) (b : BroadcastId)
    (updates : List SegmentInventoryUpdate) (sockets : OrderedSet SocketId) :
    ∃ batches : List (List SegmentInventoryUpdate),
      messagesTo s (sendBatch b updates sockets) = batches.map (.segmentInventoryBatch b) ∧
      (s ∈ sockets → batches.flatten = updates) ∧ (s ∉ sockets → batches = []) := by
  unfold sendBatch
  simp only [messagesTo_flatMap, messagesTo_sendToAll]
  by_cases hs : s ∈ sockets
  · refine ⟨(List.range
        ((updates.length + (MAX_UPDATES_PER_BATCH - 1)) / MAX_UPDATES_PER_BATCH)).map fun i =>
          (updates.drop (i * MAX_UPDATES_PER_BATCH)).take MAX_UPDATES_PER_BATCH, ?_,
      fun _ => flatten_batches updates (by decide), fun hnot => absurd hs hnot⟩
    simp only [hs, if_true, List.map_map]
    exact List.map_eq_flatMap.symm
  · exact ⟨[], by simp [hs], fun hmem => absurd hmem hs, fun _ => rfl⟩

/-- The share of a viewer goes to its own sockets, and covers its view. -/
theorem messagesTo_viewerBatch (hsound : h.Sound) (hs : s ∈ h.viewerSockets b p)
    (b' : BroadcastId) (updates : OrderedMap PeerId SegmentInventoryUpdate) (p' : PeerId) :
    ∃ batches : List (List SegmentInventoryUpdate),
      messagesTo s (h.viewerBatch b' updates p') = batches.map (.segmentInventoryBatch b) ∧
      (¬ (b' = b ∧ p' = p) → batches.flatten = []) ∧
      (b' = b → p' = p → KeyedUpdates updates → ∀ q ∈ h.shown b p,
        batchEffect batches.flatten q = updateEffect updates q) := by
  by_cases hown : b' = b ∧ p' = p
  · obtain ⟨rfl, rfl⟩ := hown
    obtain ⟨subscribers, hsubscribers⟩ : ∃ subscribers,
        h.subscribersByBroadcast.get? b' = some subscribers := by
      cases hb : h.subscribersByBroadcast.get? b' with
      | none =>
          rw [viewerSockets, hb] at hs
          exact absurd hs (OrderedSet.not_mem_empty s)
      | some subscribers => exact ⟨subscribers, rfl⟩
    obtain ⟨sockets, hsockets⟩ : ∃ sockets, subscribers.viewers.get? p' = some sockets := by
      cases hp : subscribers.viewers.get? p' with
      | none =>
          rw [viewerSockets, hsubscribers, Option.bind_some, hp] at hs
          exact absurd hs (OrderedSet.not_mem_empty s)
      | some sockets => exact ⟨sockets, rfl⟩
    have hmem : s ∈ sockets := by
      rw [viewerSockets, hsubscribers, Option.bind_some, hsockets] at hs
      exact hs
    unfold viewerBatch
    rw [hsubscribers, Option.bind_some, hsockets]
    cases hview : h.neighborViews.bind fun views => views.view b' p' with
    | none =>
        refine ⟨[], rfl, fun hne => absurd ⟨rfl, rfl⟩ hne, fun _ _ _ q hq => ?_⟩
        obtain ⟨v, hv, hq⟩ := hq
        rw [hv, Option.bind_some] at hview
        rw [NeighborViews.viewOf_eq, hview] at hq
        exact absurd hq (OrderedSet.not_mem_empty q)
    | some view =>
        dsimp only
        obtain ⟨batches, heq, hflat⟩ := messagesTo_sendBatch s b'
          (if view.size < updates.size then view.toList.filterMap updates.get?
            else updates.values.filter fun u => decide (u.peerId ∈ view)) sockets
        refine ⟨batches, heq, fun hne => absurd ⟨rfl, rfl⟩ hne, fun _ _ hkeyed q hq => ?_⟩
        obtain ⟨v, hv, hq⟩ := hq
        rw [hv, Option.bind_some] at hview
        rw [NeighborViews.viewOf_eq, hview, Option.getD_some] at hq
        rw [hflat.1 hmem]
        split_ifs
        · exact batchEffect_of_view hkeyed view hq
        · exact batchEffect_of_updates hkeyed view hq
  · refine ⟨[], ?_, fun _ => rfl, fun hb hp => absurd ⟨hb, hp⟩ hown⟩
    unfold viewerBatch
    split
    · rename_i sockets view hsockets hview
      obtain ⟨batches, heq, hflat⟩ := messagesTo_sendBatch s b'
        (if view.size < updates.size then view.toList.filterMap updates.get?
          else updates.values.filter fun u => decide (u.peerId ∈ view)) sockets
      have hnot : s ∉ sockets := by
        intro hmem
        refine hown (hsound.indexed.viewer_unique hs ?_)
        rw [viewerSockets, hsockets]
        exact hmem
      rw [heq, hflat.2 hnot]
      rfl
    · rfl

/-- What the viewers served in one turn are sent: a socket of `b` and `p` gets
the updates of the peers it sees if `p` is among them, and nothing otherwise. -/
theorem messagesTo_served (hsound : h.Sound) (hs : s ∈ h.viewerSockets b p)
    (b' : BroadcastId) (updates : OrderedMap PeerId SegmentInventoryUpdate)
    (served : List PeerId) :
    ∃ batches : List (List SegmentInventoryUpdate),
      messagesTo s (served.flatMap (h.viewerBatch b' updates))
        = batches.map (.segmentInventoryBatch b) ∧
      (KeyedUpdates updates → ∀ q ∈ h.shown b p, batchEffect batches.flatten q
        = if b' = b ∧ p ∈ served then updateEffect updates q else .keep) := by
  rw [messagesTo_flatMap]
  induction served with
  | nil => exact ⟨[], rfl, fun _ _ _ => by simp [batchEffect]⟩
  | cons p' rest ih =>
      obtain ⟨batches, heq, heffect⟩ := ih
      obtain ⟨own, hown, hother, hshare⟩ := messagesTo_viewerBatch hsound hs b' updates p'
      refine ⟨own ++ batches, ?_, fun hkeyed q hq => ?_⟩
      · rw [List.flatMap_cons, hown, heq, List.map_append]
      · rw [List.flatten_append, batchEffect_append, heffect hkeyed q hq]
        by_cases hmine : b' = b ∧ p' = p
        · obtain ⟨rfl, rfl⟩ := hmine
          have hserved : b' = b' ∧ p' ∈ p' :: rest := ⟨rfl, List.mem_cons_self⟩
          rw [hshare rfl rfl hkeyed q hq, if_pos hserved]
          split_ifs
          · exact Overwrite.andThen_self _
          · exact Overwrite.andThen_keep _
        · rw [hother hmine]
          change Overwrite.keep.andThen _ = _
          rw [Overwrite.keep_andThen]
          by_cases hb : b' = b
          · have hp : ¬ p = p' := fun e => hmine ⟨hb, e.symm⟩
            simp [hb, hp]
          · simp [hb]

variable {good good' : BroadcastId → PeerId → PeerId → Set SegmentId → Prop}
variable {exact : BroadcastId → PeerId → Prop}

/-- Batches to the sockets of the viewers in `served`. -/
theorem Following.served (hf : h.Following good exact) (hsound : h.Sound) (b' : BroadcastId)
    (updates : OrderedMap PeerId SegmentInventoryUpdate) (served : List PeerId)
    (hgood : ∀ b p, ∀ q ∈ h.stored b, ∀ effect : Overwrite SegmentId,
      (KeyedUpdates updates →
        effect = if b' = b ∧ p ∈ served then updateEffect updates q else .keep) →
      ∀ copy, good b p q copy → good' b p q (effect.apply copy)) :
    (h.deliver (served.flatMap (h.viewerBatch b' updates))).Following good' exact := by
  intro s b p socket hs hget hopen
  change s ∈ h.viewerSockets b p at hs
  rw [get?_sockets_deliver] at hget
  obtain ⟨socket', hget', rfl⟩ := Option.map_eq_some_iff.mp hget
  have hopen' : socket'.isOpen = true := by
    by_contra hclosed
    rw [if_neg hclosed] at hopen
    exact hclosed hopen
  obtain ⟨batches, heq, heffect⟩ := messagesTo_served hsound hs b' updates served
  have hbatches := (hf s b p socket' hs hget' hopen').batches (good' b p) batches
    fun q hq hqs copy hcopy => hgood b p q hqs _ (fun hkeyed => heffect hkeyed q hq) copy hcopy
  rw [if_pos hopen', heq, Socket.directory, PeerDirectory.handleMessages_append]
  rw [Socket.directory, PeerDirectory.handleMessages_broadcastId] at hbatches
  exact hbatches

/-! ## Slices and flushes -/

theorem Sound.flushing (hsound : h.Sound) (flushing flushRequested : OrderedSet BroadcastId)
    (immediates : OrderedMap BroadcastId FlushJob) (timers : List BroadcastId)
    (pendingInventory : OrderedMap BroadcastId (OrderedMap PeerId PendingInventory)) :
    Sound { h with
      flushing := flushing, flushRequested := flushRequested, immediates := immediates
      timers := timers, pendingInventory := pendingInventory } :=
  ⟨hsound.indexed.congr rfl rfl rfl fun _ => id, hsound.views, hsound.keyed, hsound.viewing⟩

/-- The viewers served in one turn. -/
def served (h : TrackerWebSocketHub) (b : BroadcastId) (job : FlushJob) : List PeerId :=
  (job.viewerIds.take (h.sliceEnd b job)).drop job.start

theorem Following.sendSlice (hf : h.Following good exact) (hsound : h.Sound) (b' : BroadcastId)
    (job : FlushJob) (good' : BroadcastId → PeerId → PeerId → Set SegmentId → Prop)
    (hgood : ∀ b p, ∀ q ∈ h.stored b, ∀ effect : Overwrite SegmentId,
      (KeyedUpdates job.updates →
        effect = if b' = b ∧ p ∈ h.served b' job then updateEffect job.updates q else .keep) →
      ∀ copy, good b p q copy → good' b p q (effect.apply copy)) :
    (h.sendSlice b' job).1.Following good' exact := by
  have hserved := hf.served hsound b' job.updates (h.served b' job) hgood
  unfold TrackerWebSocketHub.sendSlice
  dsimp only
  split_ifs <;> exact hserved

theorem Sound.sendSlice (hsound : h.Sound) (b' : BroadcastId) (job : FlushJob) :
    (h.sendSlice b' job).1.Sound := by
  have hdeliver := hsound.deliver ((h.served b' job).flatMap (h.viewerBatch b' job.updates))
  unfold TrackerWebSocketHub.sendSlice
  dsimp only
  split_ifs <;> exact hdeliver.flushing _ _ _ _ _

/-- Apart from what is sent, a slice schedules the next one or ends the flush. -/
theorem sendSlice_cases (h : TrackerWebSocketHub) (b : BroadcastId) (job : FlushJob) :
    ∃ sockets,
      (h.isCurrent b job = true ∧ h.sliceEnd b job < job.viewerIds.length) ∧
        (h.sendSlice b job).1 = { h with
          sockets := sockets
          immediates := h.immediates.set b { job with start := h.sliceEnd b job } } ∨
      ¬ (h.isCurrent b job = true ∧ h.sliceEnd b job < job.viewerIds.length) ∧
        (h.sendSlice b job).1 = { h with
          sockets := sockets
          flushing := h.flushing.erase b } := by
  unfold TrackerWebSocketHub.sendSlice
  dsimp only
  split_ifs with hmore
  · exact ⟨_, Or.inl ⟨hmore, rfl⟩⟩
  · exact ⟨_, Or.inr ⟨hmore, rfl⟩⟩

/-- The change that waits for a peer. -/
def pendingAt (h : TrackerWebSocketHub) (b : BroadcastId) (q : PeerId) : Option PendingInventory :=
  (h.pendingInventory.get? b).bind fun updates => updates.get? q

/-- The hub whose pending changes of a broadcast were taken, at the start of a flush. -/
def taken (h : TrackerWebSocketHub) (b : BroadcastId) : TrackerWebSocketHub :=
  { h with pendingInventory := h.pendingInventory.delete b }

/-- A broadcast whose record counts no viewers has no neighbor-view socket. -/
theorem not_mem_viewerSockets_of_size {subscribers : BroadcastSubscribers}
    (hb : h.subscribersByBroadcast.get? b = some subscribers) (hsize : subscribers.viewers.size = 0)
    (p : PeerId) : s ∉ h.viewerSockets b p := by
  intro hs
  rw [viewerSockets, hb, Option.bind_some] at hs
  cases hp : subscribers.viewers.get? p with
  | none =>
      rw [hp] at hs
      exact OrderedSet.not_mem_empty s hs
  | some sockets =>
      have hlength := List.length_pos_of_mem (OrderedMap.get?_eq_some_iff.mp hp)
      unfold OrderedMap.size at hsize
      omega

/-- **Everything the start of a flush does.** Either it ends at once, because
nothing is pending or no neighbor-view socket is subscribed, or the first slice
of the snapshot is sent; the sockets in `batched` are served before. -/
theorem startFlush_cases (hsound : h.Sound) (b : BroadcastId) :
    ∃ out, (∀ s b p, s ∈ h.viewerSockets b p → messagesTo s out = []) ∧
      (h.startFlush b = ((h.taken b).deliver out, false) ∧
          ((∀ q, h.pendingAt b q = none) ∨ ∀ s p, s ∉ h.viewerSockets b p) ∨
        ∃ pending subscribers, h.pendingInventory.get? b = some pending ∧
          h.subscribersByBroadcast.get? b = some subscribers ∧
          h.startFlush b =
            { (h.taken b).deliver out with flushing := h.flushing.insert b }.sendSlice b
              ⟨subscribers.id, toUpdates pending, subscribers.viewers.keys, 0⟩) := by
  cases hpending : h.pendingInventory.get? b with
  | none =>
      refine ⟨[], fun _ _ _ _ => rfl, Or.inl ⟨?_, Or.inl fun q => ?_⟩⟩
      · unfold startFlush
        dsimp only
        rw [hpending]
        rfl
      · rw [pendingAt, hpending, Option.bind_none]
  | some pending =>
      cases hb : h.subscribersByBroadcast.get? b with
      | none =>
          refine ⟨[], fun _ _ _ _ => rfl, Or.inl ⟨?_, Or.inr fun s p hs => ?_⟩⟩
          · unfold startFlush
            dsimp only
            rw [hpending, hb]
            rfl
          · rw [viewerSockets, hb] at hs
            exact OrderedSet.not_mem_empty s hs
      | some subscribers =>
          by_cases hempty : pending.size = 0
          · refine ⟨[], fun _ _ _ _ => rfl, Or.inl ⟨?_, Or.inl fun q => ?_⟩⟩
            · unfold startFlush
              dsimp only
              rw [hpending, hb]
              exact if_pos hempty
            · rw [pendingAt, hpending, Option.bind_some, OrderedMap.get?_eq_none_iff,
                OrderedMap.mem_iff_mem_keys, List.length_eq_zero_iff.mp
                  ((OrderedMap.length_keys pending).trans hempty)]
              exact List.not_mem_nil
          have hquiet : ∀ s b' p, s ∈ h.viewerSockets b' p →
              messagesTo s (if subscribers.batched.size > 0 then
                sendBatch b (toUpdates pending).values subscribers.batched else []) = [] := by
            intro s b' p hs
            split_ifs
            · obtain ⟨batches, heq, -, hnone⟩ := messagesTo_sendBatch s b
                (toUpdates pending).values subscribers.batched
              have hnot : s ∉ subscribers.batched := by
                have := hsound.indexed.not_listens hs b
                rw [subscribersAt, hb, Option.getD_some] at this
                exact (not_or.mp this).2
              rw [heq, hnone hnot]
              rfl
            · rfl
          refine ⟨_, hquiet, ?_⟩
          by_cases hsize : subscribers.viewers.size = 0
          · refine Or.inl ⟨?_, Or.inr fun s p => not_mem_viewerSockets_of_size hb hsize p⟩
            unfold startFlush
            dsimp only
            rw [hpending, hb]
            dsimp only
            rw [if_neg hempty, if_pos hsize]
            rfl
          · refine Or.inr ⟨pending, subscribers, rfl, rfl, ?_⟩
            unfold startFlush
            dsimp only
            rw [hpending, hb]
            dsimp only
            rw [if_neg hempty, if_neg hsize]
            rfl

/-! ## Publishing a report -/

/-- Reports of the broadcast are queued: somebody waits for batches. -/
def queues (h : TrackerWebSocketHub) (b : BroadcastId) : Bool :=
  (h.subscribersByBroadcast.get? b).any fun s => s.batched.size > 0 ∨ s.viewers.size > 0

/-- A broadcast with a neighbor-view socket queues. -/
theorem queues_of_mem (hs : s ∈ h.viewerSockets b p) : h.queues b = true := by
  cases hb : h.subscribersByBroadcast.get? b with
  | none =>
      rw [viewerSockets, hb] at hs
      exact absurd hs (OrderedSet.not_mem_empty s)
  | some subscribers =>
      rw [queues, hb, Option.any_some, decide_eq_true_eq]
      refine Or.inr (Nat.pos_of_ne_zero fun hsize => ?_)
      exact not_mem_viewerSockets_of_size hb hsize p hs

/-- Everything queueing a report does. -/
theorem queueInventory_spec (h : TrackerWebSocketHub) (m : InventoryMessage) :
    ∃ timers pendingInventory,
      h.queueInventory m = { h with timers := timers, pendingInventory := pendingInventory } ∧
      ∀ b q, (pendingInventory.get? b).bind (fun updates => updates.get? q) =
        if b = m.broadcastId ∧ q = m.peerId then
          some (mergePending (h.pendingAt m.broadcastId m.peerId) m)
        else h.pendingAt b q := by
  have hset : ∀ updates : OrderedMap PeerId PendingInventory,
      (∀ q, updates.get? q = h.pendingAt m.broadcastId q) → ∀ b q,
      ((h.pendingInventory.set m.broadcastId (updates.set m.peerId
          (mergePending (updates.get? m.peerId) m))).get? b).bind (fun u => u.get? q) =
        if b = m.broadcastId ∧ q = m.peerId then
          some (mergePending (h.pendingAt m.broadcastId m.peerId) m)
        else h.pendingAt b q := by
    intro updates hupdates b q
    rw [OrderedMap.get?_set, hupdates]
    by_cases hb : b = m.broadcastId
    · subst hb
      rw [if_pos rfl, Option.bind_some, OrderedMap.get?_set, hupdates]
      simp
    · rw [if_neg hb]
      simp [hb, pendingAt]
  unfold queueInventory
  cases hpending : h.pendingInventory.get? m.broadcastId with
  | none =>
      refine ⟨_, _, rfl, hset ∅ fun q => ?_⟩
      rw [pendingAt, hpending, Option.bind_none]
      rfl
  | some updates =>
      refine ⟨_, _, rfl, hset updates fun q => ?_⟩
      rw [pendingAt, hpending, Option.bind_some]

/-- Everything a published report does. -/
theorem publishInventory_spec (hsound : h.Sound) (m : InventoryMessage) :
    ∃ out timers pendingInventory,
      (∀ s b p, s ∈ h.viewerSockets b p → messagesTo s out = []) ∧
      h.publishInventory m =
        { h.deliver out with timers := timers, pendingInventory := pendingInventory } ∧
      ∀ b q, (pendingInventory.get? b).bind (fun updates => updates.get? q) =
        if h.queues m.broadcastId = true ∧ b = m.broadcastId ∧ q = m.peerId then
          some (mergePending (h.pendingAt m.broadcastId m.peerId) m)
        else h.pendingAt b q := by
  cases hb : h.subscribersByBroadcast.get? m.broadcastId with
  | none =>
      refine ⟨[], h.timers, h.pendingInventory, fun _ _ _ _ => rfl, ?_, fun b q => ?_⟩
      · unfold publishInventory
        rw [hb]
        rfl
      · rw [queues, hb]
        simp [pendingAt]
  | some subscribers =>
      have hquiet : ∀ s b p, s ∈ h.viewerSockets b p →
          messagesTo s (sendToAll subscribers.immediate m.toServerMessage) = [] := by
        intro s b p hs
        have hnot := hsound.indexed.not_listens hs m.broadcastId
        rw [subscribersAt, hb, Option.getD_some] at hnot
        rw [messagesTo_sendToAll, if_neg (not_or.mp hnot).1]
      have hqueues : h.queues m.broadcastId = true ↔
          subscribers.batched.size > 0 ∨ subscribers.viewers.size > 0 := by
        rw [queues, hb, Option.any_some, decide_eq_true_eq]
      by_cases hq : subscribers.batched.size > 0 ∨ subscribers.viewers.size > 0
      · have hpublish : h.publishInventory m = (h.deliver
            (sendToAll subscribers.immediate m.toServerMessage)).queueInventory m := by
          unfold publishInventory
          rw [hb]
          exact if_pos hq
        obtain ⟨timers, pendingInventory, heq, hpending⟩ := queueInventory_spec
          (h.deliver (sendToAll subscribers.immediate m.toServerMessage)) m
        refine ⟨_, timers, pendingInventory, hquiet, hpublish.trans heq, fun b q => ?_⟩
        rw [hpending]
        simp only [hqueues.mpr hq, true_and]
        rfl
      · refine ⟨_, h.timers, h.pendingInventory, hquiet, ?_, fun b q => ?_⟩
        · unfold publishInventory
          rw [hb]
          exact if_neg hq
        · rw [if_neg fun hand => hq (hqueues.mp hand.1)]
          rfl

end TrackerWebSocketHub

end OpenStreamGrid
