import OpenStreamGrid.Tracker.HubInventory

/-!
# Merging reports into a batch

Between two flushes the reports about a peer are merged into one pending change,
and the flush sends that change once. Merging composes overwrites, so the change
carries a client to where the reports themselves would have carried it, and a
client that had seen some of them already is carried there as well.
-/

namespace OpenStreamGrid

/-- The report is about this peer of this broadcast. -/
def InventoryMessage.About (b : BroadcastId) (p : PeerId) (m : InventoryMessage) : Prop :=
  m.broadcastId = b ∧ m.peerId = p

instance (b : BroadcastId) (p : PeerId) (m : InventoryMessage) : Decidable (m.About b p) :=
  inferInstanceAs (Decidable (m.broadcastId = b ∧ m.peerId = p))

/-- What reports about one peer, taken in order, say of its inventory. -/
def reportsEffect (ms : List InventoryMessage) : Overwrite SegmentId :=
  ms.foldl (fun (o : Overwrite SegmentId) m => o.andThen m.effect) Overwrite.keep

theorem foldl_reports (ms : List InventoryMessage) : ∀ o : Overwrite SegmentId,
    ms.foldl (fun (o : Overwrite SegmentId) m => o.andThen m.effect) o
      = o.andThen (reportsEffect ms) := by
  induction ms with
  | nil => exact fun o => (Overwrite.andThen_keep o).symm
  | cons m rest ih =>
      intro o
      have hhead : reportsEffect (m :: rest) = m.effect.andThen (reportsEffect rest) := by
        rw [reportsEffect, List.foldl_cons, ih, Overwrite.keep_andThen]
      rw [List.foldl_cons, ih, hhead, Overwrite.andThen_assoc]

theorem reportsEffect_cons (m : InventoryMessage) (ms : List InventoryMessage) :
    reportsEffect (m :: ms) = m.effect.andThen (reportsEffect ms) := by
  rw [reportsEffect, List.foldl_cons, foldl_reports, Overwrite.keep_andThen]

theorem reportsEffect_append (ms ms' : List InventoryMessage) :
    reportsEffect (ms ++ ms') = (reportsEffect ms).andThen (reportsEffect ms') := by
  rw [reportsEffect, List.foldl_append, foldl_reports]
  rfl

/-- After some of the reports, all of them once more. -/
theorem apply_reportsEffect_take (ms : List InventoryMessage) (n : ℕ) (s : Set SegmentId) :
    (reportsEffect ms).apply ((reportsEffect (ms.take n)).apply s)
      = (reportsEffect ms).apply s := by
  rw [← Overwrite.apply_andThen]
  have hsplit : reportsEffect ms
      = (reportsEffect (ms.take n)).andThen (reportsEffect (ms.drop n)) := by
    rw [← reportsEffect_append, List.take_append_drop]
  rw [hsplit, Overwrite.andThen_andThen_self]

namespace PeerDirectory

/-- A client that is sent the reports one by one. -/
theorem inventory_handleMessages_reports (ms : List InventoryMessage) {b : BroadcastId}
    {p : PeerId} : ∀ {d : PeerDirectory}, d.broadcastId = b → p ∈ d.peers →
      (∀ m ∈ ms, m.About b p) →
      (d.handleMessages (ms.map InventoryMessage.toServerMessage)).inventory p
          = (reportsEffect ms).apply (d.inventory p) ∧
        p ∈ (d.handleMessages (ms.map InventoryMessage.toServerMessage)).peers := by
  induction ms with
  | nil =>
      intro d _ hp _
      exact ⟨(Overwrite.apply_keep _).symm, hp⟩
  | cons m rest ih =>
      intro d hb hp hms
      obtain ⟨hmb, hmp⟩ := hms m List.mem_cons_self
      have hmember : m.peerId ∈ d.peers := hmp ▸ hp
      have hone := inventory_handleMessage_inventoryMessage (hmb.trans hb.symm) hmember
      obtain ⟨u, hu, -⟩ := handleMessage_inventoryMessage (hmb.trans hb.symm)
      have hb' : (d.handleMessage m.toServerMessage).broadcastId = b := by
        rw [hu, applyUpdate_broadcastId, hb]
      have hp' : p ∈ (d.handleMessage m.toServerMessage).peers := by
        rw [hu]
        exact mem_applyUpdate.mpr hp
      obtain ⟨hrest, hmem⟩ := ih hb' hp' fun m' hm' => hms m' (List.mem_cons_of_mem m hm')
      refine ⟨?_, hmem⟩
      rw [hmp] at hone
      rw [List.map_cons]
      refine hrest.trans ?_
      rw [hone, ← Overwrite.apply_andThen, reportsEffect_cons]

end PeerDirectory

/-! ## The merged change -/

/-- No ID is both added and removed. -/
def PendingInventory.Disjoint : PendingInventory → Prop
  | .replace _ => True
  | .delta added removed => ∀ x ∈ added, x ∉ removed

/-- The same of the update that is sent. -/
def SegmentInventoryUpdate.Disjoint : SegmentInventoryUpdate → Prop
  | .replace _ _ => True
  | .delta _ added removed => ∀ x ∈ added, x ∉ removed

theorem PendingInventory.Disjoint.toUpdate {change : PendingInventory} (h : change.Disjoint)
    (p : PeerId) : (change.toUpdate p).Disjoint := by
  cases change with
  | replace segments => trivial
  | delta added removed => exact h

theorem mergeDelta_disjoint {pending : Option PendingInventory}
    (h : ∀ change ∈ pending, change.Disjoint) (added removed : List SegmentId) :
    (mergePending.mergeDelta pending added removed).Disjoint := by
  cases pending with
  | none =>
      intro x hadded
      simp only [OrderedSet.mem_insertAll, OrderedSet.mem_eraseAll, OrderedSet.not_mem_empty,
        false_and, false_or] at hadded
      simp [hadded]
  | some change =>
      cases change with
      | replace segments => trivial
      | delta pendingAdded pendingRemoved =>
          have hold : ∀ x ∈ pendingAdded, x ∉ pendingRemoved := h _ rfl
          intro x hadded
          simp only [OrderedSet.mem_insertAll, OrderedSet.mem_eraseAll] at hadded ⊢
          rcases hadded with ⟨hx, hremoved⟩ | hx
          · rintro ⟨hpending | hnew, -⟩
            · exact hold x hx hpending
            · exact hremoved hnew
          · rintro ⟨-, hnot⟩
            exact hnot hx

theorem mergePending_disjoint {pending : Option PendingInventory}
    (h : ∀ change ∈ pending, change.Disjoint) (m : InventoryMessage) :
    (mergePending pending m).Disjoint := by
  cases m with
  | segmentAvailable b q segments replace =>
      cases replace with
      | true => trivial
      | false => exact mergeDelta_disjoint h segments []
  | segmentInventoryDelta b q added removed => exact mergeDelta_disjoint h added removed

/-- The pending change after a sequence of reports about its peer. -/
def mergeReports (pending : Option PendingInventory) (ms : List InventoryMessage) :
    Option PendingInventory :=
  ms.foldl (fun pending m => some (mergePending pending m)) pending

theorem mergeReports_spec (ms : List InventoryMessage) :
    ∀ pending : Option PendingInventory, (∀ change ∈ pending, change.Disjoint) →
      (((mergeReports pending ms).map PendingInventory.effect).getD .keep
          = ((pending.map PendingInventory.effect).getD .keep).andThen (reportsEffect ms)) ∧
        ∀ change ∈ mergeReports pending ms, change.Disjoint := by
  induction ms with
  | nil => exact fun pending h => ⟨(Overwrite.andThen_keep _).symm, h⟩
  | cons m rest ih =>
      intro pending h
      have hmerged : ∀ change ∈ some (mergePending pending m), change.Disjoint := by
        rintro change hchange
        obtain rfl := Option.some.inj hchange
        exact mergePending_disjoint h m
      obtain ⟨heffect, hdisjoint⟩ := ih (some (mergePending pending m)) hmerged
      refine ⟨?_, hdisjoint⟩
      refine heffect.trans ?_
      rw [Option.map_some, Option.getD_some, mergePending_effect, Overwrite.andThen_assoc,
        reportsEffect_cons]

theorem isSome_mergeReports {ms : List InventoryMessage} (hne : ms ≠ []) :
    ∀ pending, (mergeReports pending ms).isSome := by
  cases ms with
  | nil => exact absurd rfl hne
  | cons m rest =>
      intro pending
      change (mergeReports (some (mergePending pending m)) rest).isSome
      generalize mergePending pending m = change
      clear hne pending m
      induction rest generalizing change with
      | nil => rfl
      | cons m' rest ih => exact ih (mergePending (some change) m')

namespace TrackerWebSocketHub

variable {h : TrackerWebSocketHub} {b : BroadcastId} {p : PeerId}

/-- The batch that the next flush of a broadcast sends. -/
def nextBatch (h : TrackerWebSocketHub) (b : BroadcastId) :
    OrderedMap PeerId SegmentInventoryUpdate :=
  toUpdates ((h.pendingInventory.get? b).getD ∅)

theorem get?_nextBatch (h : TrackerWebSocketHub) (b : BroadcastId) (p : PeerId) :
    (h.nextBatch b).get? p = (h.pendingAt b p).map (PendingInventory.toUpdate p) := by
  rw [nextBatch, toUpdates, OrderedMap.get?_mapWithKey, pendingAt]
  cases h.pendingInventory.get? b <;> rfl

theorem keyed_nextBatch (h : TrackerWebSocketHub) (b : BroadcastId) :
    KeyedUpdates (h.nextBatch b) := keyed_toUpdates _

theorem pendingAt_queueInventory (h : TrackerWebSocketHub) (m : InventoryMessage)
    (b : BroadcastId) (p : PeerId) : (h.queueInventory m).pendingAt b p
      = if m.About b p then some (mergePending (h.pendingAt b p) m) else h.pendingAt b p := by
  obtain ⟨timers, pendingInventory, heq, hpending⟩ := h.queueInventory_spec m
  rw [heq]
  refine (hpending b p).trans ?_
  by_cases hm : m.About b p
  · obtain ⟨rfl, rfl⟩ := hm
    rw [if_pos ⟨rfl, rfl⟩, if_pos ⟨rfl, rfl⟩]
  · rw [if_neg hm, if_neg fun hbp => hm ⟨hbp.1.symm, hbp.2.symm⟩]

/-- Reports about other peers do not touch what is pending for one. -/
theorem pendingAt_queueAll (ms : List InventoryMessage) (b : BroadcastId) (p : PeerId) :
    ∀ h : TrackerWebSocketHub, (ms.foldl queueInventory h).pendingAt b p
      = mergeReports (h.pendingAt b p) (ms.filter fun m => m.About b p) := by
  induction ms with
  | nil => exact fun h => rfl
  | cons m rest ih =>
      intro h
      rw [List.foldl_cons, ih, pendingAt_queueInventory]
      by_cases hm : m.About b p
      · rw [if_pos hm, List.filter_cons_of_pos (by simpa using hm)]
        rfl
      · rw [if_neg hm, List.filter_cons_of_neg (by simpa using hm)]

/-! ## What the batch carries -/

/-- The whole batch says of a peer what its own update says. -/
theorem inventory_handleMessages_batch {updates : OrderedMap PeerId SegmentInventoryUpdate}
    (hkeyed : KeyedUpdates updates) {s : SocketId} {sockets : OrderedSet SocketId}
    (hs : s ∈ sockets) {d : PeerDirectory} (hd : d.broadcastId = b) (hp : p ∈ d.peers) :
    (d.handleMessages (messagesTo s (sendBatch b updates.values sockets))).inventory p
      = (updateEffect updates p).apply (d.inventory p) := by
  obtain ⟨batches, hbatches, hflatten, -⟩ := messagesTo_sendBatch s b updates.values sockets
  obtain ⟨-, hinventory⟩ := PeerDirectory.inventory_applyUpdates updates.values hp
  have hall : updates.values.filter (fun u => decide (u.peerId ∈ OrderedSet.ofList [p]))
      = updates.values.filter fun u => decide (u.peerId = p) := by
    simp
  have heffect : batchEffect updates.values p = updateEffect updates p := by
    rw [← batchEffect_of_updates hkeyed (OrderedSet.ofList [p]) (by simp), hall,
      ← batchEffect_filter]
  rw [hbatches, ← hd, PeerDirectory.handleMessages_segmentInventoryBatch, hflatten hs,
    hinventory, heffect]

/-- The messages of the reports about one peer, sent one by one. -/
def reportsAbout (b : BroadcastId) (p : PeerId) (ms : List InventoryMessage) :
    List WsServerMessage :=
  (ms.filter fun m => m.About b p).map InventoryMessage.toServerMessage

/-- **The merged update means what the reports mean**, to every client that has
applied some of them, alone and within the batch. -/
theorem batch_preserves_meaning (hnone : h.pendingAt b p = none) (ms : List InventoryMessage)
    (hqueued : ∃ m ∈ ms, m.About b p) {d : PeerDirectory} (hd : d.broadcastId = b)
    (hp : p ∈ d.peers) :
    ∃ update, ((ms.foldl queueInventory h).nextBatch b).get? p = some update ∧
      update.peerId = p ∧ update.Disjoint ∧
      ∀ n, ((d.handleMessages ((reportsAbout b p ms).take n)).applyUpdate update).inventory p
          = (d.handleMessages (reportsAbout b p ms)).inventory p ∧
        ∀ s sockets, s ∈ sockets →
          ((d.handleMessages ((reportsAbout b p ms).take n)).handleMessages (messagesTo s
            (sendBatch b ((ms.foldl queueInventory h).nextBatch b).values sockets))).inventory p
            = (d.handleMessages (reportsAbout b p ms)).inventory p := by
  set queued := ms.filter fun m => m.About b p with hqueue
  have habout : ∀ m ∈ queued, m.About b p := by
    intro m hm
    simpa using (List.mem_filter.mp hm).2
  have hne : queued ≠ [] := by
    obtain ⟨m, hm, hmabout⟩ := hqueued
    exact List.ne_nil_of_mem (List.mem_filter.mpr ⟨hm, by simpa using hmabout⟩)
  have hpending := pendingAt_queueAll ms b p h
  rw [hnone] at hpending
  obtain ⟨change, hchange⟩ := Option.isSome_iff_exists.mp (isSome_mergeReports hne none)
  obtain ⟨heffect, hdisjoint⟩ := mergeReports_spec queued none (by rintro change ⟨⟩)
  rw [hchange] at hpending
  rw [hchange, Option.map_some, Option.getD_some, Option.map_none, Option.getD_none,
    Overwrite.keep_andThen] at heffect
  have hget := get?_nextBatch (ms.foldl queueInventory h) b p
  rw [hpending, Option.map_some] at hget
  have hupdate : updateEffect ((ms.foldl queueInventory h).nextBatch b) p
      = reportsEffect queued := by
    rw [updateEffect, hget, Option.map_some, Option.getD_some, PendingInventory.effect_toUpdate,
      heffect]
  refine ⟨change.toUpdate p, hget, ?_, (hdisjoint change hchange).toUpdate p, ?_⟩
  · cases change <;> rfl
  · intro n
    rw [reportsAbout, ← hqueue]
    have hall := (PeerDirectory.inventory_handleMessages_reports queued hd hp habout).1
    obtain ⟨hcopy, hmem⟩ := PeerDirectory.inventory_handleMessages_reports (queued.take n) hd hp
      fun m hm => habout m (List.mem_of_mem_take hm)
    rw [List.map_take] at hcopy hmem
    refine ⟨?_, fun s sockets hs => ?_⟩
    · rw [PeerDirectory.inventory_applyUpdate hmem, PendingInventory.effect_toUpdate, heffect,
        hcopy, hall, apply_reportsEffect_take]
    · rw [inventory_handleMessages_batch (keyed_nextBatch _ b) hs
        ((PeerDirectory.handleMessages_broadcastId ..).trans hd) hmem, hupdate, hcopy, hall,
        apply_reportsEffect_take]

/-- A client that knows one peer, which has cached one segment. -/
def knowsOne : PeerDirectory :=
  (PeerDirectory.new "live").handleMessage (.peerJoined "live"
    ⟨⟨"p", "", none, none⟩, ["a"], 0, 0, 0, clampUnitInterval 1, clampUnitInterval 1⟩)

/-- Reports of every kind, with one of another peer between them. -/
def mixedReports : List InventoryMessage :=
  [.segmentInventoryDelta "live" "p" ["b"] ["a"], .segmentAvailable "live" "q" ["x"] false,
    .segmentAvailable "live" "p" ["c"] true, .segmentAvailable "live" "p" ["a", "c"] false,
    .segmentInventoryDelta "live" "p" ["d"] ["c", "d"]]

theorem batch_preserves_meaning_mixed :
    ∃ update, ((mixedReports.foldl queueInventory start).nextBatch "live").get? "p" = some update ∧
      ((knowsOne.handleMessages ((reportsAbout "live" "p" mixedReports).take 2)).applyUpdate
        update).inventory "p"
        = (knowsOne.handleMessages (reportsAbout "live" "p" mixedReports)).inventory "p" := by
  obtain ⟨update, hget, -, -, hsame⟩ := batch_preserves_meaning
    (h := start) (b := "live") (p := "p") rfl mixedReports
    ⟨.segmentAvailable "live" "p" ["c"] true, by simp [mixedReports], rfl, rfl⟩ (d := knowsOne)
    rfl (by decide)
  exact ⟨update, hget, (hsame 2).1⟩

end TrackerWebSocketHub

end OpenStreamGrid
